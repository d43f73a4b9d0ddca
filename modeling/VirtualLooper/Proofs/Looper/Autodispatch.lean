import VirtualLooper.Proofs.Looper.Alike
import VirtualLooper.Proofs.Looper.Sequential
import VirtualLooper.Proofs.Looper.Verdict

/-!
# Auto-dispatch does what a dispatch after each request does

A main thread can deliver all that is due itself, at first and after each of its requests
(`dispatched`), or it can begin a session, let the worker come to rest at first and after each
request, and stop the session in the end (`autodispatched`).  Two loopers that go through the same
requests in these two ways stay alike all the time, while the worker counts the messages that the
dispatches have delivered (`Mirrors`).  So if the first run comes to its end, the second does, with
the same answers, and its stop says how many messages the first has delivered
(`autodispatched_of_dispatched`).
-/

namespace VirtualLooper

variable {σ κ : Type}

/-! ### The two runs -/

def Reply.number : Reply → Nat
  | count n => n
  | _ => 0

/-- The main thread makes requests one after the other, with a pause after each that says how many
messages were delivered in it.  What was answered, and the number of messages delivered. -/
def askPausing (w : World σ κ) (bound : Nat) (pause : State σ κ → Outcome (State σ κ) Nat) :
    List (Request κ) → State σ κ → Outcome (State σ κ) (List (Except Failure Reply) × Nat)
  | [], s => .ok ([], 0) s
  | r :: rs, s =>
    (perform w bound .main r s).attempt fun result s =>
      (pause s).bind fun n s =>
        (askPausing w bound pause rs s).map fun rest => (result :: rest.1, n + rest.2)

def dispatch (w : World σ κ) (bound : Nat) (s : State σ κ) : Outcome (State σ κ) Nat :=
  (perform w bound .main .dispatchAll s).map Reply.number

/-- The main thread delivers all that is due, and again after each of its requests. -/
def dispatched (w : World σ κ) (bound : Nat) (rs : List (Request κ)) (s : State σ κ) :
    Outcome (State σ κ) (List (Except Failure Reply) × Nat) :=
  (dispatch w bound s).bind fun n s =>
    (askPausing w bound (dispatch w bound) rs s).map fun rest => (rest.1, n + rest.2)

/-- The main thread makes its requests in a session, whose worker comes to rest at first and after
each of them.  What was answered, and what the stop of the session said. -/
def autodispatched (w : World σ κ) (bound : Nat) (rs : List (Request κ)) (s : State σ κ) :
    Outcome (State σ κ) (List (Except Failure Reply) × Except Failure Reply) :=
  let rest (s : State σ κ) : Outcome (State σ κ) Nat := (settle w bound s).map fun _ => 0
  (perform w bound .main .start s).bind fun _ s =>
    (rest s).bind fun _ s =>
      (askPausing w bound rest rs s).bind fun answers s =>
        (perform w bound .main .stop s).attempt fun stopped s => .ok (answers.1, stopped) s

/-! ### Two loopers that are alike -/

namespace State

/-- A looper `s`, on which the main thread dispatches, and a looper `s'`, on which a session is
going on that has begun in the state `s₀` and whose worker has counted so many messages.  Both are
in so many loops. -/
structure Mirrors (s₀ : State σ κ) (count loops : Nat) (s s' : State σ κ) : Prop extends
    Alike s s' where
  free : s.session = none
  deep : s.depth = loops
  settings : s'.settings = s₀.settings
  session : s'.session = some s₀.workers.length
  workers : s'.workers.length = s₀.workers.length + 1
  record : s'.worker? s₀.workers.length = some ⟨count, false, .live⟩
  gone : ∀ j < s₀.workers.length, s'.isLive j = false

namespace Mirrors

variable {w : World σ κ} {s₀ s s' t t' : State σ κ} {count loops n bound : Nat}

theorem isLive (h : Mirrors s₀ count loops s s') : s'.isLive s₀.workers.length = true := by
  rw [State.isLive, h.record]
  rfl

theorem isStopping (h : Mirrors s₀ count loops s s') :
    s'.isStopping s₀.workers.length = false := by
  rw [State.isStopping, h.record]
  rfl

theorem of_stays (h : Mirrors s₀ count loops s s') (hAlike : Alike t t') (hFirst : Stays s t)
    (hSecond : Stays s' t') : Mirrors s₀ count loops t t' where
  toAlike := hAlike
  free := hFirst.session.trans h.free
  deep := hFirst.depth.trans h.deep
  settings := hSecond.settings.trans h.settings
  session := hSecond.session.trans h.session
  workers := by rw [hSecond.workers, h.workers]
  record := by rw [worker?, hSecond.workers, ← worker?, h.record]
  gone j hj := by
    rw [State.isLive, worker?, hSecond.workers]
    exact h.gone j hj

theorem enter (h : Mirrors s₀ count loops s s') :
    Mirrors s₀ count (loops + 1) s.enter s'.enter where
  toAlike := ⟨h.fallback, h.clock, h.queue, congrArg (· + 1) h.depth, h.memory, h.records,
    h.happenings⟩
  free := h.free
  deep := congrArg (· + 1) h.deep
  settings := h.settings
  session := h.session
  workers := h.workers
  record := h.record
  gone := h.gone

theorem leave (h : Mirrors s₀ count (loops + 1) s s') :
    Mirrors s₀ count loops s.leave s'.leave where
  toAlike := ⟨h.fallback, h.clock, h.queue, congrArg (· - 1) h.depth, h.memory, h.records,
    h.happenings⟩
  free := h.free
  deep := congrArg (· - 1) h.deep
  settings := h.settings
  session := h.session
  workers := h.workers
  record := h.record
  gone := h.gone

theorem countFor (h : Mirrors s₀ count loops s s') :
    Mirrors s₀ (count + 1) loops s (s'.countFor s₀.workers.length) where
  toAlike := h.toAlike.trans ⟨rfl, rfl, rfl, rfl, rfl, rfl, rfl⟩
  free := h.free
  deep := h.deep
  settings := h.settings
  session := h.session
  workers := by simp [State.countFor, updateWorker, h.workers]
  record := by
    have hRecord : s'.workers[s₀.workers.length]? = some ⟨count, false, .live⟩ := h.record
    simp [worker?, State.countFor, updateWorker, hRecord]
  gone j hj := by
    have hSame : (s'.countFor s₀.workers.length).phase? j = s'.phase? j :=
      phase?_updateWorker_same fun _ => rfl
    have hGone := h.gone j hj
    rw [← Bool.not_eq_true, State.isLive_iff] at hGone ⊢
    rwa [hSame]

/-- **The worker delivers what a dispatch delivers.** -/
theorem drain (hAsks : w.Asks Request.IsPlain) (hBlind : w.Blind) {first : Nat} (second : Nat)
    {bound' : Nat} (hLe : bound ≤ bound') (h : Mirrors s₀ count loops s s')
    (hDrain : drainWith .main id (w.deliver (perform w (first + 1) .main) .main) bound s =
      .ok n t) :
    ∃ t', drainWith (.worker s₀.workers.length) (·.countFor s₀.workers.length)
        (w.deliver (perform w (second + 1) (.worker s₀.workers.length))
          (.worker s₀.workers.length)) bound' s' = .ok n t' ∧
      Mirrors s₀ (count + n) loops t t' := by
  -- on the bound of the dispatch; that of the worker only has to be as large
  induction bound generalizing bound' count n s s' with
  | zero => cases hDrain
  | succ bound ih =>
    obtain ⟨bound', rfl⟩ : ∃ b, bound' = b + 1 := ⟨bound' - 1, by omega⟩
    rw [drainWith] at hDrain ⊢
    rcases h.take .main (.worker s₀.workers.length) with
      ⟨hNone, hNone'⟩ | ⟨m, u, u', hTake, hTake', hAlike⟩
    · rw [hNone] at hDrain
      obtain ⟨rfl, rfl⟩ := Outcome.ok.inj hDrain
      rw [hNone']
      exact ⟨s', rfl, h⟩
    · rw [hTake] at hDrain
      rw [hTake']
      have hTaken : Mirrors s₀ (count + 1) loops u (u'.countFor s₀.workers.length) :=
        (h.of_stays hAlike (.take hTake) (.take hTake')).countFor
      obtain ⟨_, u₁, hDeliver, hMap⟩ := Outcome.bind_eq_ok.1 hDrain
      obtain ⟨n₁, hRest, rfl⟩ := Outcome.map_eq_ok.1 hMap
      obtain ⟨u₁', hDeliver', hAlike', hFirst, hSecond⟩ :=
        hTaken.deliver .main (.worker s₀.workers.length) first second hAsks hBlind hDeliver
      obtain ⟨t', hRest', hMirrors⟩ :=
        ih (Nat.le_of_succ_le_succ hLe) (hTaken.of_stays hAlike' hFirst hSecond) hRest
      refine ⟨t', ?_, ?_⟩
      · exact Outcome.bind_eq_ok.2 ⟨(), u₁', hDeliver', Outcome.map_eq_ok.2 ⟨n₁, hRest', rfl⟩⟩
      · rw [show count + (n₁ + 1) = count + 1 + n₁ by omega]
        exact hMirrors

theorem begin (hSession : s₀.session = none) (hDepth : s₀.depth = 0)
    (hGone : ∀ j, s₀.isLive j = false) : Mirrors s₀ 0 0 s₀ (s₀.beginSession .main) where
  toAlike := ⟨rfl, rfl, rfl, rfl, rfl, rfl, rfl⟩
  free := hSession
  deep := hDepth
  settings := rfl
  session := rfl
  workers := by simp [beginSession, note]
  record := by simp [worker?, beginSession, note, Worker.fresh]
  gone j hj := by
    have hSame : (s₀.beginSession .main).phase? j = s₀.phase? j := by
      rw [phase?_beginSession, if_neg (by omega)]
    have hGone := hGone j
    rw [← Bool.not_eq_true, State.isLive_iff] at hGone ⊢
    rwa [hSame]

/-- **In its turn the worker delivers what a dispatch delivers.** -/
theorem turn (hAsks : w.Asks Request.IsPlain) (hBlind : w.Blind)
    (hWait : s₀.settings.checkWait = .ok ()) (h : Mirrors s₀ count 0 s s')
    (hDispatch : dispatch w bound s = .ok n t) {bound' : Nat} (hLe : bound ≤ bound') :
    ∃ t', VirtualLooper.turn w bound' s₀.workers.length s' = .ok () t' ∧
      Mirrors s₀ (count + n) 0 t t' ∧ t.take? .main = none := by
  obtain ⟨reply, hPerform, rfl⟩ := Outcome.map_eq_ok.1 hDispatch
  cases bound with
  | zero => cases hPerform
  | succ bound =>
    have hLate : s.respond w .main .dispatchAll = .deliverAll := by
      simp [State.respond, running, h.free]
    rw [perform, hLate] at hPerform
    obtain ⟨n, u, hClose, hNote⟩ := Outcome.bind_eq_ok.1 hPerform
    obtain ⟨rfl, rfl⟩ := Outcome.ok.inj hNote
    obtain ⟨v, hDrain, rfl⟩ := closeDispatch_eq_ok.1 hClose
    cases bound with
    | zero => cases hDrain
    | succ bound =>
      obtain ⟨bound', rfl⟩ : ∃ b, bound' = b + 1 := ⟨bound' - 1, by omega⟩
      obtain ⟨v', hDrain', hMirrors⟩ := h.enter.drain hAsks hBlind bound'
        (Nat.le_of_succ_le hLe) hDrain
      have hLeft := hMirrors.leave
      have hWaits : v'.leave.settings.checkWait = .ok () := by rw [hLeft.settings, hWait]
      refine ⟨v'.leave, ?_, ?_, ?_⟩
      · rw [VirtualLooper.turn, turnWith, hDrain']
        simp only [Outcome.onState, Outcome.attempt, hLeft.isStopping, Bool.false_eq_true, if_false,
          hWaits]
      · have hReturned := (hLeft.of_none (o := .returned n) rfl).1
        have hNoted : Alike ((v.leave.recordHistory (.returned n)).note .main (.delivered n))
            (v.leave.recordHistory (.returned n)) := ⟨rfl, rfl, rfl, rfl, rfl, rfl, rfl⟩
        exact hLeft.of_stays (hNoted.trans hReturned) ⟨⟨rfl, rfl, rfl, rfl⟩, rfl⟩ (.refl _)
      · have hIdle := State.take?_eq_none_iff.1 (take?_of_drainWith hDrain)
        exact State.take?_eq_none_iff.2 hIdle

theorem exists_worker_of_isLive {k : Nat} (hLive : s.isLive k = true) :
    ∃ u, s.worker? k = some u ∧ u.isLive = true := by
  rw [State.isLive] at hLive
  cases hWorker : s.worker? k with
  | none => simp [hWorker] at hLive
  | some u => exact ⟨u, rfl, by simpa [hWorker] using hLive⟩

/-- All workers come to rest when the last one, which alone is live, has had its turn. -/
theorem settleFrom_of_turn {k : Nat} (hWorkers : s.workers.length = k + 1)
    (hGone : ∀ j < k, s.isLive j = false) (hLive : s.isLive k = true)
    (hTurn : VirtualLooper.turn w (bound + 1) k s = .ok () t) (hWorkers' : t.workers.length = k + 1)
    {left j : Nat} (hLeft : j + left = k) : settleFrom w (bound + 2 + left) j s = .ok () t := by
  induction left generalizing j with
  | zero =>
    -- the turn of the live worker, after which there are no more workers
    obtain rfl : j = k := hLeft
    obtain ⟨u, hWorker, hu⟩ := exists_worker_of_isLive hLive
    have hNone : t.worker? (j + 1) = none := by simp [worker?, hWorkers']
    rw [Nat.add_zero, settleFrom, hWorker]
    simp only [hu, if_true, hTurn, Outcome.bind]
    rw [settleFrom, hNone]
  | succ left ih =>
    have hLt : j < s.workers.length := by omega
    have hWorker : s.worker? j = some s.workers[j] := List.getElem?_eq_getElem hLt
    have hNot : s.workers[j].isLive = false := by
      have hGone := hGone j (by omega)
      rwa [State.isLive, hWorker] at hGone
    rw [← Nat.add_assoc, settleFrom, hWorker]
    simp only [hNot, Bool.false_eq_true, if_false, Outcome.bind]
    exact ih (by omega)

/-- **The worker comes to rest when it has delivered what a dispatch delivers.** -/
theorem settle (hAsks : w.Asks Request.IsPlain) (hBlind : w.Blind)
    (hWait : s₀.settings.checkWait = .ok ()) (h : Mirrors s₀ count 0 s s')
    (hDispatch : dispatch w bound s = .ok n t) {bound' : Nat}
    (hLe : bound + s₀.workers.length + 2 ≤ bound') :
    ∃ t', VirtualLooper.settle w bound' s' = .ok () t' ∧ Mirrors s₀ (count + n) 0 t t' ∧
      t.take? .main = none := by
  obtain ⟨b, rfl⟩ : ∃ b, bound' = b + 2 + s₀.workers.length :=
    ⟨bound' - 2 - s₀.workers.length, by omega⟩
  obtain ⟨t', hTurn, hMirrors, hIdle⟩ :=
    h.turn hAsks hBlind hWait hDispatch (show bound ≤ b + 1 by omega)
  exact ⟨t', settleFrom_of_turn h.workers h.gone h.isLive hTurn hMirrors.workers
    (Nat.zero_add _), hMirrors, hIdle⟩

/-- **With pauses of either kind, requests are answered alike.** -/
theorem askPausing (hAsks : w.Asks Request.IsPlain) (hBlind : w.Blind)
    (hWait : s₀.settings.checkWait = .ok ()) {rs : List (Request κ)}
    (hPlain : ∀ r ∈ rs, r.IsPlain) (h : Mirrors s₀ count 0 s s') (hIdle : s.take? .main = none)
    {results : List (Except Failure Reply)}
    (hRun : VirtualLooper.askPausing w bound (dispatch w bound) rs s = .ok (results, n) t)
    {bound' : Nat} (hLe : bound + s₀.workers.length + 2 ≤ bound') :
    ∃ t', VirtualLooper.askPausing w bound'
        (fun s => (VirtualLooper.settle w bound' s).map fun _ => 0) rs s' = .ok (results, 0) t' ∧
      Mirrors s₀ (count + n) 0 t t' ∧ t.take? .main = none := by
  induction rs generalizing s s' count n results with
  | nil =>
    obtain ⟨hEq, rfl⟩ := Outcome.ok.inj hRun
    obtain ⟨rfl, rfl⟩ := Prod.mk.inj hEq
    exact ⟨s', rfl, h, hIdle⟩
  | cons r rs ih =>
    obtain ⟨bound, rfl⟩ : ∃ b, bound = b + 1 := by
      cases bound with
      | zero => cases hRun
      | succ b => exact ⟨b, rfl⟩
    obtain ⟨bound', rfl⟩ : ∃ b, bound' = b + 1 := ⟨bound' - 1, by omega⟩
    obtain ⟨result, u, u', hReply, hReply', hAlike, hFirst, hSecond⟩ :=
      h.respond w .main .main (hPlain r List.mem_cons_self)
    rw [VirtualLooper.askPausing, perform_of_reply hReply, Outcome.attempt_ofResult] at hRun
    obtain ⟨n₁, v, hDispatch, hMap⟩ := Outcome.bind_eq_ok.1 hRun
    obtain ⟨⟨rest, n₂⟩, hRest, hEq⟩ := Outcome.map_eq_ok.1 hMap
    obtain ⟨rfl, rfl⟩ := Prod.mk.inj hEq
    obtain ⟨v', hSettle, hMirrors, hIdle'⟩ :=
      (h.of_stays hAlike hFirst hSecond).settle hAsks hBlind hWait hDispatch hLe
    obtain ⟨t', hRest', hMirrors', hIdle''⟩ :=
      ih (fun r hr => hPlain r (List.mem_cons_of_mem _ hr)) hMirrors hIdle' hRest
    refine ⟨t', ?_, ?_, hIdle''⟩
    · rw [VirtualLooper.askPausing, perform_of_reply hReply', Outcome.attempt_ofResult, hSettle]
      exact Outcome.map_eq_ok.2 ⟨(rest, 0), hRest', rfl⟩
    · rw [← Nat.add_assoc]
      exact hMirrors'

/-- **The stop of the session says how many messages were delivered.** -/
theorem stop (h : Mirrors s₀ count 0 s s')
    (hIdle : s.take? .main = none) (bound : Nat) :
    ∃ t', perform w (bound + 2) .main .stop s' =
        .ofResult (s₀.settings.stopOutcome count) t' ∧
      Alike s t' ∧ t'.session = none ∧ ∀ j, t'.isLive j = false := by
  -- the worker is asked to stop, finds nothing due in its last turn, and exits
  let k := s₀.workers.length
  let asked := s'.requestStop k
  have hRecord : s'.workers[k]? = some ⟨count, false, .live⟩ := h.record
  have hAsked : asked.worker? k = some ⟨count, true, .live⟩ := by
    simp [asked, worker?, requestStop, updateWorker, hRecord]
  have hLive : asked.isLive k = true := by
    rw [State.isLive, hAsked]
    rfl
  have hNone : asked.enter.take? (.worker k) = none := by
    rw [State.take?_eq_none_iff] at hIdle ⊢
    rw [← h.queue, ← h.clock] at hIdle
    exact hIdle
  have hDepth : asked.depth = 0 := h.depth.trans h.deep
  have hTurn : asked.turnWith k (drainWith (.worker k) (·.countFor k)
      (w.deliver (perform w (bound + 1) (.worker k)) (.worker k)) (bound + 1)) =
        .ok () (asked.exitWorker k) := by
    rw [turnWith, drainWith, hNone]
    simp only [Outcome.onState, Outcome.attempt, leave_enter, State.isStopping, hAsked,
      Option.map_some, Option.getD_some, if_true]
  let closed := (asked.exitWorker k).closeSession .main k
  have hExited : closed.worker? k = some ⟨count, true, .exited⟩ := by
    have hAsked : asked.workers[k]? = some ⟨count, true, .live⟩ := hAsked
    simp [closed, closeSession, endSession, State.recordHistory, note, exitWorker, worker?,
      updateWorker, hAsked]
  have hResult : closed.stopResult k = s₀.settings.stopOutcome count := by
    have hSettings : closed.settings = s₀.settings := h.settings
    rw [stopResult_of_not_died fun e => by simp [State.phase?, hExited], hSettings, dispatchedBy,
      hExited]
    rfl
  refine ⟨closed, ?_, ?_, rfl, fun j => ?_⟩
  · have hStop : s'.respond w .main .stop = .stop k := by
      simp [State.respond, h.session, k]
    rw [perform, hStop, ← hResult]
    have hOther : ¬ Thread.main = .worker k := by simp
    simp only [stopWith, hOther, if_false]
    rw [if_pos hLive, if_pos hDepth, hTurn]
    rfl
  · have hEnded := (h.toAlike.of_none (o := .ended k) rfl).2
    exact hEnded.trans ⟨rfl, rfl, rfl, rfl, rfl, rfl, rfl⟩
  · rw [← Bool.not_eq_true, State.isLive_iff]
    by_cases hSame : j = k
    · rw [hSame, State.phase?, hExited]
      simp
    · have hPhase : closed.phase? j = s'.phase? j := by
        refine Eq.trans (Machine.phase?_exitWorker asked k j) ?_
        rw [if_neg hSame]
        exact phase?_updateWorker_same fun _ => rfl
      rw [hPhase, ← State.isLive_iff, Bool.not_eq_true]
      rcases Nat.lt_or_gt_of_ne hSame with hLt | hGt
      · exact h.gone j hLt
      · have hNone : s'.worker? j = none := by
          rw [worker?, List.getElem?_eq_none_iff, h.workers]
          exact hGt
        rw [State.isLive, hNone]
        rfl

end Mirrors

end State

/-- If handlers make plain requests only, nothing is being dispatched between the turns of a looper,
and no worker is left while no session is going on. -/
theorem rests_of_byTurns {w : World σ κ} (hAsks : w.Asks Request.IsPlain) {s : State σ κ}
    (h : ByTurns w s) (hSession : s.session = none) :
    s.depth = 0 ∧ ∀ j, s.isLive j = false := by
  obtain ⟨M, hReach, -, rfl, hDepth, -⟩ := reachable_of_byTurns h (.done ())
  have hLeaves : w.Asks Request.LeavesSessions := hAsks.mono fun r hr => by
    constructor <;> rintro rfl <;> exact hr
  have hOrderly := Machine.orderly_of_reachable hLeaves Request.leavesSessions_not hReach
  exact ⟨hDepth, hOrderly.isLive_eq_false hSession⟩

/-- **Auto-dispatch does what a dispatch after each request does.** No session is going on, nothing
is being dispatched and no worker is left of earlier sessions, as in any idle looper with such
handlers (`rests_of_byTurns`), and workers can wait.  Handlers make plain requests only, on whatever
thread they run.  If a main thread that delivers all that is due, at first and after each of its
requests, comes to its end, which it does not if a handler fails, then so does one that makes its
requests in a session whose worker comes to rest at first and after each of them.  All requests are
answered alike; the same messages were delivered in the same order and at the same times; the clock,
the messages that are pending and the next sequence number are the same, and so is what handlers
remember and what recording receivers have received.  The session is over, and its stop says how
many messages the dispatches have delivered, or complains that there are none. -/
theorem autodispatched_of_dispatched {w : World σ κ} (hAsks : w.Asks Request.IsPlain)
    (hBlind : w.Blind) {s t : State σ κ} (hSession : s.session = none) (hDepth : s.depth = 0)
    (hGone : ∀ j, s.isLive j = false) (hWait : s.settings.checkWait = .ok ())
    {rs : List (Request κ)} (hPlain : ∀ r ∈ rs, r.IsPlain) {bound n : Nat}
    {results : List (Except Failure Reply)}
    (hRun : dispatched w bound rs s = .ok (results, n) t) :
    ∃ least, ∀ bound' ≥ least, ∃ t',
      autodispatched w bound' rs s = .ok (results, s.settings.stopOutcome n) t' ∧
      t.Alike t' ∧ t'.session = none ∧ ∀ j, t'.isLive j = false := by
  refine ⟨bound + s.workers.length + 3, fun bound' hLe => ?_⟩
  obtain ⟨b, rfl⟩ : ∃ b, bound' = b + 2 := ⟨bound' - 2, by omega⟩
  obtain ⟨n₁, u, hFirst, hMap⟩ := Outcome.bind_eq_ok.1 hRun
  obtain ⟨⟨answers, n₂⟩, hRest, hEq⟩ := Outcome.map_eq_ok.1 hMap
  obtain ⟨rfl, rfl⟩ := Prod.mk.inj hEq
  have hBegin : s.respond w .main .start = .reply (.ok .nothing) (s.beginSession .main) := by
    simp [State.respond, State.running, hSession]
  obtain ⟨u', hSettle, hMirrors, hIdle⟩ := (State.Mirrors.begin hSession hDepth hGone).settle hAsks
    hBlind hWait hFirst (show bound + s.workers.length + 2 ≤ b + 2 by omega)
  obtain ⟨v', hAsk, hMirrors', hIdle'⟩ := hMirrors.askPausing hAsks hBlind hWait hPlain hIdle hRest
    (show bound + s.workers.length + 2 ≤ b + 2 by omega)
  obtain ⟨t', hStop, hAlike, hOver, hGone'⟩ := hMirrors'.stop (w := w) hIdle' b
  refine ⟨t', ?_, hAlike, hOver, hGone'⟩
  have hPause : ((settle w (b + 2) (s.beginSession .main)).map fun _ => 0) = .ok 0 u' :=
    Outcome.map_eq_ok.2 ⟨(), hSettle, rfl⟩
  rw [autodispatched, perform_of_reply hBegin]
  refine Outcome.bind_eq_ok.2 ⟨.nothing, _, rfl, Outcome.bind_eq_ok.2 ⟨0, u', hPause,
    Outcome.bind_eq_ok.2 ⟨(answers, 0), v', hAsk, ?_⟩⟩⟩
  rw [hStop, Outcome.attempt_ofResult, Nat.zero_add]

/-- Receivers do nothing; a callback sends the next one, until there is none left. -/
def World.chained : World Unit Nat where
  receive _ _ := .done ()
  invoke n :=
    if n = 0 then .done ()
    else .ask (.enqueue (.str "next") (.int 0) none (some (n - 1))) fun _ => .done ()
  records _ := false

/-- A message is sent whose callback sends another one: two messages are delivered. -/
theorem autodispatched_chained :
    ∃ (s t : State Unit Nat) (results : List (Except Failure Reply)),
      State.make .standard none () = .ok s ∧
      dispatched World.chained 5 [.enqueue (.str "first") (.int 0) none (some 1)] s =
        .ok (results, 2) t ∧
      ∃ least, ∀ bound' ≥ least, ∃ t',
        autodispatched World.chained bound' [.enqueue (.str "first") (.int 0) none (some 1)] s =
          .ok (results, .ok (.count 2)) t' ∧
        t.Alike t' ∧ t'.session = none ∧ ∀ j, t'.isLive j = false := by
  have hRun : ∃ (s t : State Unit Nat) (results : List (Except Failure Reply)),
      State.make .standard none () = .ok s ∧
      dispatched World.chained 5 [.enqueue (.str "first") (.int 0) none (some 1)] s =
        .ok (results, 2) t := ⟨_, _, _, rfl, rfl⟩
  obtain ⟨s, t, results, hMake, hDispatched⟩ := hRun
  have hAsks : World.chained.Asks Request.IsPlain := by
    refine ⟨fun target tag => trivial, fun n => ?_⟩
    show Program.Asks _ (if n = 0 then _ else _)
    split
    · exact trivial
    · exact ⟨trivial, fun _ => trivial⟩
  have hBlind : World.chained.Blind := by
    refine ⟨fun target tag => trivial, fun n => ?_⟩
    show Program.Blind (if n = 0 then _ else _)
    split
    · exact trivial
    · exact fun _ => trivial
  have hMade : s.settings = .standard ∧ s.session = none := by
    obtain ⟨clock, rfl⟩ := State.spec_of_make hMake
    exact ⟨rfl, rfl⟩
  obtain ⟨hSettings, hSession⟩ := hMade
  obtain ⟨hDepth, hGone⟩ := rests_of_byTurns hAsks (.make hMake) hSession
  have hStop : s.settings.stopOutcome 2 = .ok (.count 2) := by simp [Settings.stopOutcome]
  have hWait : s.settings.checkWait = .ok () := by
    rw [hSettings]
    exact Settings.checkWait_standard
  have hSame := autodispatched_of_dispatched hAsks hBlind hSession hDepth hGone hWait
    (by simp [Request.IsPlain]) hDispatched
  rw [hStop] at hSame
  exact ⟨s, t, results, hMake, hDispatched, hSame⟩

end VirtualLooper
