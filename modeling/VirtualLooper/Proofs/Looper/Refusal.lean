import VirtualLooper.Proofs.Looper.Lockstep
import VirtualLooper.Proofs.Looper.Verdict

/-!
# Requests that are refused

A looper refuses a request because of its arguments or because of the session (`State.Refuses`), and
then it is as it was (`State.Refuses.respond`).  So a request that is refused may as well not be
made.

* `Program.Omits`: a program without some of its requests, where it goes on as it does after any
  refusal.
* `Without`: two machines, of which the one has made requests that were refused and the other has
  not.  A step of the one is a step of the other (`Without.step`), or it makes such a request and
  changes nothing (`Without.leaveOut`).
* `same_without_refused`: hence a run is one without these requests.
-/

namespace VirtualLooper

variable {σ κ : Type}

/-! ### Refusals -/

def Value.IsNatural (v : Value) : Prop := ∃ n : Int, 0 ≤ n ∧ v = .int n

/-- The looper refuses the request: nobody is to receive the message, a delay, a due time or an
amount is no integer or out of range, a session is going on that must not, or none is that must. -/
def State.Refuses (s : State σ κ) : Request κ → Prop
  | .enqueue _ delay target callback =>
    (target.or s.fallback = none ∧ callback = none) ∨ ¬ delay.IsNatural
  | .enqueueAt _ due target callback =>
    (target.or s.fallback = none ∧ callback = none) ∨ ¬ ∃ n : Int, due = .int n
  | .advance amount => ¬ amount.IsNatural
  | .start | .dispatchAll | .dispatchNext => s.running = true
  | .stop => s.session = none
  | _ => False

namespace State.Refuses

variable {s : State σ κ} {r : Request κ}

theorem resolve {target : Option Target} {callback : Option κ}
    (h : target.or s.fallback = none ∧ callback = none) :
    s.resolve target callback = .error .noReceiver := by
  obtain ⟨hTarget, rfl⟩ := h
  simp only [State.resolve, hTarget]

/-- **Who is refused is told so, and nothing else happens.** -/
theorem respond (h : s.Refuses r) (w : World σ κ) (thread : Thread) :
    ∃ e, s.respond w thread r = .reply (.error e) s := by
  cases r with
  | enqueue tag delay target callback =>
    cases hSent : s.enqueue tag delay target callback with
    | error e => exact ⟨e, by rw [State.respond, hSent]; rfl⟩
    | ok queued =>
      exfalso
      rcases h with hNobody | hDelay
      · simp [State.enqueue, resolve hNobody, bind, Except.bind] at hSent
      · rw [State.enqueue] at hSent
        cases hFound : s.resolve target callback with
        | error e => simp [hFound, bind, Except.bind] at hSent
        | ok found =>
          cases hQueued : s.queue.enqueue tag delay (.int s.clock.now) found callback with
          | error e => simp [hFound, hQueued, bind, Except.bind] at hSent
          | ok accepted =>
            obtain ⟨n, rfl, hPos⟩ := Queue.delay_of_enqueue hQueued
            exact hDelay ⟨n, hPos, rfl⟩
  | enqueueAt tag due target callback =>
    cases hSent : s.enqueueAt tag due target callback with
    | error e => exact ⟨e, by rw [State.respond, hSent]; rfl⟩
    | ok queued =>
      exfalso
      rcases h with hNobody | hDue
      · simp [State.enqueueAt, resolve hNobody, bind, Except.bind] at hSent
      · obtain ⟨m, -, -, hDueOf, -⟩ := State.spec_of_enqueueAt hSent
        exact hDue ⟨m.due, hDueOf⟩
  | advance amount =>
    cases hMoved : s.advance amount with
    | error e => exact ⟨e, by rw [State.respond, move, hMoved]⟩
    | ok moved =>
      obtain ⟨n, hPos, rfl, -⟩ := State.spec_of_advance hMoved
      exact absurd ⟨n, hPos, rfl⟩ h
  | start =>
    have hRunning : s.running = true := h
    exact ⟨.alreadyRunning, by rw [State.respond, if_pos hRunning]⟩
  | dispatchAll =>
    have hRunning : s.running = true := h
    exact ⟨.busy "dispatch_all", by rw [State.respond, if_pos hRunning]⟩
  | dispatchNext =>
    have hRunning : s.running = true := h
    exact ⟨.busy "dispatch_next", by rw [State.respond, if_pos hRunning]⟩
  | stop =>
    have hIdle : s.session = none := h
    exact ⟨.notRunning, by rw [State.respond, hIdle]⟩
  | _ => exact h.elim

end State.Refuses

/-! ### Programs without some of their requests -/

/-- Which requests are left out, each by what a program goes on with. -/
abbrev Omission (σ κ : Type) : Type :=
  Request κ → (Except Failure Reply → Program σ κ Unit) → Prop

/-- The second program is the first without the requests that are left out: there it goes on as the
first one does after any refusal. -/
inductive Program.Omits (D : Omission σ κ) : Program σ κ Unit → Program σ κ Unit → Prop
  | done (u : Unit) : Omits D (.done u) (.done u)
  | fail (e : Failure) : Omits D (.fail e) (.fail e)
  | load {next next' : σ → Program σ κ Unit} (h : ∀ memory, Omits D (next memory) (next' memory)) :
      Omits D (.load next) (.load next')
  | store (memory : σ) {next next' : Program σ κ Unit} (h : Omits D next next') :
      Omits D (.store memory next) (.store memory next')
  | look {next next' : Sight → Program σ κ Unit} (h : ∀ sight, Omits D (next sight) (next' sight)) :
      Omits D (.look next) (.look next')
  | ask (r : Request κ) {next next' : Except Failure Reply → Program σ κ Unit} (hKept : ¬ D r next)
      (h : ∀ reply, Omits D (next reply) (next' reply)) : Omits D (.ask r next) (.ask r next')
  | skip (r : Request κ) {next : Except Failure Reply → Program σ κ Unit} {p' : Program σ κ Unit}
      (hOmitted : D r next) (h : ∀ e, Omits D (next (.error e)) p') : Omits D (.ask r next) p'

/-- The second list is the first without some of the refusals. -/
inductive Exchange.Omits : List (Exchange κ) → List (Exchange κ) → Prop
  | nil : Omits [] []
  | keep (x : Exchange κ) {xs ys : List (Exchange κ)} (h : Omits xs ys) : Omits (x :: xs) (x :: ys)
  | skip (x : Exchange κ) (hRefused : ∃ e, x.result = .error e) {xs ys : List (Exchange κ)}
      (h : Omits xs ys) : Omits (x :: xs) ys

namespace Exchange.Omits

theorem refl (xs : List (Exchange κ)) : Omits xs xs := by
  induction xs with
  | nil => exact .nil
  | cons x xs ih => exact .keep x ih

theorem append {xs ys xs' ys' : List (Exchange κ)} (h : Omits xs ys) (h' : Omits xs' ys') :
    Omits (xs ++ xs') (ys ++ ys') := by
  induction h with
  | nil => exact h'
  | keep x h ih => exact .keep x ih
  | skip x hRefused h ih => exact .skip x hRefused ih

end Exchange.Omits

namespace Machine

/-- Two machines in the same state, the threads of the second one without the requests that are left
out, which have been refused to the first one so far. -/
structure Without (D : Omission σ κ) (M M' : Machine σ κ) : Prop where
  state : M'.state = M.state
  dispatcher : M'.dispatcher = M.dispatcher
  tasks : ∀ thread, (M.tasks thread).InStep (Program.Omits D) (Program.Omits D) (M'.tasks thread)
  exchanges : Exchange.Omits M.exchanges M'.exchanges

def LeavesOut (D : Omission σ κ) (thread : Thread) (r : Request κ) (M : Machine σ κ) : Prop :=
  ∃ next callers, M.tasks thread = ⟨.run (.ask r next), callers⟩ ∧ D r next

namespace Without

variable {D : Omission σ κ} {w w' : World σ κ} {thread : Thread} {r : Request κ}
  {M M' N : Machine σ κ}

theorem start {p p' : Program σ κ Unit} (h : p.Omits D p') (s : State σ κ) :
    Without D (Machine.start s p) (Machine.start s p') := by
  refine ⟨rfl, rfl, ?_, .nil⟩
  intro thread
  cases thread with
  | main => exact ⟨Program.Omits D, .run h, .bottom⟩
  | worker session => exact ⟨Program.Omits D, .acquire (.worker session false), .bottom⟩

/-- Whatever a thread is about to do, it is related as programs are. -/
theorem lift (h : Without D M M') (thread : Thread) :
    (M.tasks thread).control.Lift (Program.Omits D) (M'.tasks thread).control ∧
      Below (Program.Omits D) (Program.Omits D) (Program.Omits D) (M.tasks thread).callers
        (M'.tasks thread).callers := by
  obtain ⟨R, hControl, hBelow⟩ := (h.tasks thread).lift
  obtain rfl := hBelow.eq
  exact ⟨hControl, hBelow⟩

theorem leaveOut (h : Without D M M') (hOut : LeavesOut D thread r M) (hRefuses : M.state.Refuses r)
    (hStep : M.step w thread = some N) : Without D N M' := by
  obtain ⟨next, callers, hTask, hOmitted⟩ := hOut
  obtain ⟨e, hRespond⟩ := hRefuses.respond w thread
  obtain rfl : M.answer thread r (.error e) next callers M.state = N := by
    simpa [Machine.step, hasThread_of_step hStep, hTask, proceed, ask, hRespond] using hStep
  obtain ⟨hControl, hBelow⟩ := h.lift thread
  refine ⟨h.state, h.dispatcher, ?_, ?_⟩
  · intro other
    by_cases hOther : other = thread
    · subst hOther
      rw [answer_tasks_self]
      cases hTask' : M'.tasks other with
      | mk control' callers' =>
        rw [hTask, hTask'] at hControl hBelow
        cases hControl with
        | run hRelated =>
          cases hRelated with
          | ask r hKept => exact absurd hOmitted hKept
          | skip r hOmitted hNext => exact ⟨Program.Omits D, .run (hNext e), hBelow⟩
    · simp only [answer, put, if_neg hOther]
      exact h.tasks other
  · have hOne := h.exchanges.append (.skip ⟨thread, r, .error e, M.state.clock.now⟩ ⟨e, rfl⟩ .nil)
    rwa [List.append_nil] at hOne

/-- **A step of the one is a step of the other, unless it makes a request that the other leaves
out.** -/
theorem step (h : Without D M M') (hWorld : World.Lift (Program.Omits D) w w')
    (hNot : ∀ r, ¬ LeavesOut D thread r M) :
    (M.step w thread = none ∧ M'.step w' thread = none) ∨
      ∃ N N', M.step w thread = some N ∧ M'.step w' thread = some N' ∧ Without D N N' := by
  have hSame : InStep (Program.Omits D) (fun _ => Program.Omits D) M.exchanges M'.exchanges M M' :=
    ⟨h.state, h.dispatcher, h.tasks, [], by simp⟩
  have hAgrees : ∀ R p p' callers callers', M.tasks thread = ⟨.run p, callers⟩ →
      M'.tasks thread = ⟨.run p', callers'⟩ → R p p' →
        Below (Program.Omits D) (Program.Omits D) R callers callers' → p.Agrees R p' := by
    intro R p p' callers callers' hTask hTask' hRelated hBelow
    obtain rfl := hBelow.eq
    cases hRelated with
    | done u => exact .done u
    | fail e => exact .fail e
    | load hNext => exact .load hNext
    | store memory hNext => exact .store memory hNext
    | look hNext => exact .look hNext
    | ask r hKept hNext => exact .ask r hNext
    | skip r hOmitted hNext => exact absurd ⟨_, _, hTask, hOmitted⟩ (hNot r)
  rcases hSame.step hWorld hAgrees with hNone | ⟨N, N', hStep, hStep', hNext⟩
  · exact Or.inl hNone
  · obtain ⟨xs, hFirst, hSecond⟩ := hNext.exchanges
    refine Or.inr ⟨N, N', hStep, hStep', hNext.state, hNext.dispatcher, hNext.tasks, ?_⟩
    rw [hFirst, hSecond]
    exact h.exchanges.append (.refl xs)

theorem step_eq_none (h : Without D M M') (hWorld : World.Lift (Program.Omits D) w w')
    (hThread : M.state.hasThread thread = true) (hNone : M.step w thread = none) :
    M'.step w' thread = none := by
  have hNot (r : Request κ) : ¬ LeavesOut D thread r M := by
    rintro ⟨next, callers, hTask, -⟩
    simp [Machine.step, hThread, hTask] at hNone
  rcases h.step hWorld hNot with ⟨-, hNone'⟩ | ⟨N, N', hStep, -⟩
  · exact hNone'
  · rw [hNone] at hStep
    cases hStep

/-- **A run in which the requests that are left out are refused is a run without them.** -/
theorem follow (h : Without D M M') (hWorld : World.Lift (Program.Omits D) w w')
    {schedule : List Thread} (hFollow : M.follow w schedule = some N)
    (hRefused : ∀ early thread late M₀ r, schedule = early ++ thread :: late →
      M.follow w early = some M₀ → LeavesOut D thread r M₀ → M₀.state.Refuses r) :
    ∃ schedule' N', schedule'.Sublist schedule ∧ M'.follow w' schedule' = some N' ∧
      Without D N N' := by
  induction schedule generalizing M M' with
  | nil =>
    obtain rfl := Option.some.inj hFollow
    exact ⟨[], M', .slnil, rfl, h⟩
  | cons thread schedule ih =>
    obtain ⟨M₁, hStep, hRest⟩ := Option.bind_eq_some_iff.1 hFollow
    have hLater : ∀ early thread late M₀ r, schedule = early ++ thread :: late →
        M₁.follow w early = some M₀ → LeavesOut D thread r M₀ → M₀.state.Refuses r := by
      intro early other late M₀ r hSplit hEarly hOut
      exact hRefused (thread :: early) other late M₀ r (congrArg (thread :: ·) hSplit)
        (Option.bind_eq_some_iff.2 ⟨M₁, hStep, hEarly⟩) hOut
    by_cases hOut : ∃ r, LeavesOut D thread r M
    · -- only the first machine takes the step
      obtain ⟨r, hOut⟩ := hOut
      have hRefuses := hRefused [] thread schedule M r rfl rfl hOut
      obtain ⟨schedule', N', hSublist, hFollow', hSame⟩ :=
        ih (h.leaveOut hOut hRefuses hStep) hRest hLater
      exact ⟨schedule', N', hSublist.cons thread, hFollow', hSame⟩
    · rcases h.step hWorld fun r hr => hOut ⟨r, hr⟩ with
        ⟨hNone, -⟩ | ⟨M₂, M₂', hStep₂, hStep', hNext⟩
      · rw [hStep] at hNone
        cases hNone
      · obtain rfl := Option.some.inj (hStep.symm.trans hStep₂)
        obtain ⟨schedule', N', hSublist, hFollow', hSame⟩ := ih hNext hRest hLater
        exact ⟨thread :: schedule', N', hSublist.cons_cons thread,
          Option.bind_eq_some_iff.2 ⟨M₂', hStep', hFollow'⟩, hSame⟩

end Without

/-- **A request that is refused is as if it had not been made.**  The looper is as it was, whatever
it has refused.  And if some of the requests that a program and the handlers make are refused
whenever they are made in a run, then the run is the same without them: the looper and all that it
has logged are the same in the end, and so are the answers to all other requests; and a thread that
cannot go on cannot go on without them. -/
theorem same_without_refused {D : Omission σ κ} {w w' : World σ κ}
    (hWorld : World.Lift (Program.Omits D) w w') {p p' : Program σ κ Unit} (hOmits : p.Omits D p')
    {s : State σ κ} {schedule : List Thread} {M : Machine σ κ}
    (hFollow : (start s p).follow w schedule = some M)
    (hRefused : ∀ early thread late M₀ r, schedule = early ++ thread :: late →
      (start s p).follow w early = some M₀ → LeavesOut D thread r M₀ → M₀.state.Refuses r) :
    (∀ (s : State σ κ) (r : Request κ), s.Refuses r → ∀ thread,
      ∃ e, s.respond w thread r = .reply (.error e) s) ∧
    ∃ schedule' M', schedule'.Sublist schedule ∧ (start s p').follow w' schedule' = some M' ∧
      Without D M M' ∧
      ∀ thread, M.state.hasThread thread = true → M.step w thread = none →
        M'.step w' thread = none := by
  refine ⟨fun s r hRefuses thread => hRefuses.respond w thread, ?_⟩
  obtain ⟨schedule', M', hSublist, hFollow', hSame⟩ :=
    (Without.start hOmits s).follow hWorld hFollow hRefused
  exact ⟨schedule', M', hSublist, hFollow', hSame,
    fun thread hThread hNone => hSame.step_eq_none hWorld hThread hNone⟩

end Machine

def World.insisting (insists : Bool) : World Unit Unit where
  receive _ _ := if insists then .ask .dispatchAll fun _ => .done () else .done ()
  invoke _ := .done ()
  records _ := false

def Program.oneHanded : Program Unit Unit Unit :=
  .ask (.handle (.handler "receiver") (.str "tag")) fun _ => .done ()

/-- A session is begun, perhaps once too often, and a tag is handed to a receiver. -/
def Program.insisting (insists : Bool) : Program Unit Unit Unit :=
  .ask .start fun _ => if insists then .ask .start fun _ => .oneHanded else .oneHanded

def Omission.insistence : Omission Unit Unit := fun r next =>
  (r = .start ∧ next = fun _ => .oneHanded) ∨ r = .dispatchAll

namespace Machine

/-- Of four requests two are refused, one of them to a receiver; the run is the same without
them. -/
theorem same_without_insisting :
    ∃ (s : State Unit Unit) (M M' : Machine Unit Unit) (schedule' : List Thread),
      State.make .standard none () = .ok s ∧
      (start s (.insisting true)).follow (.insisting true) (List.replicate 5 .main) = some M ∧
      M.exchanges.length = 4 ∧ schedule'.Sublist (List.replicate 5 .main) ∧
      (start s (.insisting false)).follow (.insisting false) schedule' = some M' ∧
      Without .insistence M M' := by
  have hRun : ∃ (s : State Unit Unit) (M : Machine Unit Unit),
      State.make .standard none () = .ok s ∧
      (start s (.insisting true)).follow (.insisting true) (List.replicate 5 .main) = some M ∧
      M.exchanges.length = 4 := ⟨_, _, rfl, rfl, rfl⟩
  obtain ⟨s, M, hMake, hFollow, hFour⟩ := hRun
  have hKept : ¬ Omission.insistence .start fun _ => .ask .start fun _ => .oneHanded := by
    rintro (⟨-, hNext⟩ | hDispatch)
    · cases congrFun hNext (.ok .nothing)
    · cases hDispatch
  have hHanded :
      ¬ Omission.insistence (.handle (.handler "receiver") (.str "tag")) fun _ => .done () := by
    rintro (⟨hStart, -⟩ | hDispatch)
    · cases hStart
    · cases hDispatch
  have hOmits : (Program.insisting true).Omits .insistence (.insisting false) :=
    .ask _ hKept fun _ => .skip _ (Or.inl ⟨rfl, rfl⟩) fun _ => .ask _ hHanded fun _ => .done ()
  have hWorld : World.Lift (Program.Omits .insistence) (.insisting true) (.insisting false) :=
    ⟨fun _ _ => .skip _ (Or.inr rfl) fun _ => .done (), fun _ => .done (), rfl, rfl, .done ()⟩
  have hRefuses : ∀ early thread late M₀ r, List.replicate 5 .main = early ++ thread :: late →
      (start s (.insisting true)).follow (.insisting true) early = some M₀ →
        LeavesOut .insistence thread r M₀ → M₀.state.Refuses r := by
    intro early thread late M₀ r hSplit hEarly hOut
    obtain ⟨hLength, hSame, -⟩ := List.append_eq_replicate_iff.1 hSplit.symm
    rw [List.length_cons] at hLength
    have hLess : early.length < 5 := by omega
    -- whatever is left out is refused while a session is going on
    have hRunning (hSession : M₀.state.running = true) : M₀.state.Refuses r := by
      obtain ⟨next, callers, -, ⟨rfl, -⟩ | rfl⟩ := hOut
      · exact hSession
      · exact hSession
    rw [hSame] at hEarly
    obtain ⟨clock, rfl⟩ := State.spec_of_make hMake
    generalize early.length = k at hEarly hLess
    have hSession : 0 < k → some true = some M₀.state.running := by
      intro hPos
      rw [← Option.map_some (f := fun M : Machine Unit Unit => M.state.running), ← hEarly]
      rcases k with _ | _ | _ | _ | _ | k
      · omega
      · rfl
      · rfl
      · rfl
      · rfl
      · omega
    cases k with
    | succ k => exact hRunning (Option.some.inj (hSession (Nat.succ_pos k))).symm
    | zero =>
      -- the first start is not left out
      obtain rfl := Option.some.inj hEarly
      obtain ⟨next, callers, hTask, hOmitted⟩ := hOut
      cases thread with
      | main =>
        cases hTask
        exact absurd hOmitted hKept
      | worker session => cases hTask
  obtain ⟨-, schedule', M', hSublist, hFollow', hSame, -⟩ :=
    same_without_refused hWorld hOmits hFollow hRefuses
  exact ⟨s, M, M', schedule', hMake, hFollow, hFour, hSublist, hFollow', hSame⟩

end Machine

end VirtualLooper
