import Mathlib.Algebra.Ring.Int.Defs
import VirtualLooper.Proofs.Looper.Verdict
import VirtualLooper.Proofs.Scenario.Ending
import VirtualLooper.Proofs.Value.Fields

/-!
# The verdict of a scenario

The report of a scenario is made of what its steps add to it, and a step adds by how its action
ended: a misuse, another failure, or no failure, in which case the action itself may check what it
has observed against what the step expects.  `Played.Observes` lists what actions observe, and
`Played.Adds` what steps add.

With plain settings nothing can go wrong outside of the steps, and what goes wrong inside of them is
in the report: the run comes to its end, however far the worker comes between the steps, and passes
if all steps go well (`verdict_of_run`).  Steps have to be mappings, and actions that would have to be
written have to be short enough for that; one that is not ends the run (`ended_by_action`).
-/

namespace VirtualLooper.Scenario

/-! ### Plain settings -/

/-- A block of settings that sets nothing but the start time, and whether a stop requires that
something was delivered. -/
def IsPlainBlock (block : Value) : Prop :=
  block.truthy = false ∨
    ∃ entries, block.entries? = some entries ∧
      (∀ e ∈ entries, e.1 = .str "start_time" ∨ e.1 = .str "require_dispatch_on_stop") ∧
      ∀ time, Value.field? entries "start_time" = some time → ∃ n : Int, 0 ≤ n ∧ time = .int n

theorem elements?_of_entries? {v : Value} {entries : List (Value × Value)}
    (h : v.entries? = some entries) : v.elements? = some (entries.map (·.1)) := by
  cases v with
  | dict es =>
    obtain rfl := Option.some.inj h
    rfl
  | cell web index =>
    rw [Value.entries?] at h
    rw [Value.elements?]
    cases hAt : Web.at web index with
    | dict es =>
      rw [hAt] at h
      obtain rfl := Option.some.inj h
      simp
    | _ =>
      rw [hAt] at h
      cases h
  | _ => cases h

theorem firstUnhashable?_of_texts {vs : List Value} (h : ∀ v ∈ vs, ∃ t, v = .str t) :
    Value.firstUnhashable? vs = none := by
  induction vs with
  | nil => rw [Value.firstUnhashable?]
  | cons v rest ih =>
    obtain ⟨t, rfl⟩ := h v List.mem_cons_self
    have hRest := ih fun v hv => h v (List.mem_cons_of_mem _ hv)
    simp [Value.firstUnhashable?, Value.unhashable?, hRest]

section Plain

variable {entries : List (Value × Value)}
  (hKeys : ∀ e ∈ entries, e.1 = .str "start_time" ∨ e.1 = .str "require_dispatch_on_stop")
include hKeys

theorem field?_of_plain {name : String} (hTime : Value.same (.str name) (.str "start_time") = false)
    (hRequire : Value.same (.str name) (.str "require_dispatch_on_stop") = false) :
    Value.field? entries name = none := by
  rw [Value.field?, Value.lookup?, Option.map_eq_none_iff, List.find?_eq_none]
  intro e he
  rcases hKeys e he with hKey | hKey
  · rw [hKey, hTime]
    exact Bool.false_ne_true
  · rw [hKey, hRequire]
    exact Bool.false_ne_true

theorem ofValue_of_plain {block : Value} (hTruthy : block.truthy = true)
    (hEntries : block.entries? = some entries) :
    Settings.ofValue block = .ok (Settings.ofFields entries) := by
  have hTexts : ∀ v ∈ entries.map (·.1), v = .str "start_time" ∨
      v = .str "require_dispatch_on_stop" := by
    intro v hv
    obtain ⟨e, he, rfl⟩ := List.mem_map.1 hv
    exact hKeys e he
  have hHashable : Value.firstUnhashable? (entries.map (·.1)) = none :=
    firstUnhashable?_of_texts fun v hv => (hTexts v hv).elim (⟨_, ·⟩) (⟨_, ·⟩)
  have hNone : (entries.map (·.1)).filter
      (fun v => !Settings.names.any fun n => Value.same v (.str n)) = [] := by
    refine List.filter_eq_nil_iff.2 fun v hv => ?_
    rcases hTexts v hv with rfl | rfl
    · decide +kernel
    · decide +kernel
  have hKnown : Settings.unknownNames (entries.map (·.1)) = .ok [] := by
    simp only [Settings.unknownNames, hNone]
    rfl
  simp [Settings.ofValue, hTruthy, elements?_of_entries? hEntries, hHashable, hKnown, hEntries,
    bind, Except.bind, pure, Except.pure]

end Plain

theorem exists_looperFor {fields : List (Value × Value)}
    (h : IsPlainBlock ((Value.field? fields "looper").getD .none)) :
    ∃ s, looperFor fields = .ok s ∧ s.settings.checkWait = .ok () := by
  obtain ⟨settings, n, hSettings, hPos, hTime, hIdle⟩ : ∃ (settings : Settings) (n : Int),
      Settings.ofValue ((Value.field? fields "looper").getD .none) = .ok settings ∧ 0 ≤ n ∧
        settings.startTime = .int n ∧ settings.idleWait = Settings.standard.idleWait := by
    cases hTruthy : ((Value.field? fields "looper").getD .none).truthy with
    | false =>
      refine ⟨.standard, 0, ?_, Int.le_refl 0, rfl, rfl⟩
      simp [Settings.ofValue, hTruthy, pure, Except.pure]
    | true =>
      rcases h with hFalse | ⟨entries, hEntries, hKeys, hStart⟩
      · rw [hTruthy] at hFalse
        cases hFalse
      · have hIdle : Value.field? entries "idle_wait_s" = none :=
          field?_of_plain hKeys (by decide +kernel) (by decide +kernel)
        have hWait : (Settings.ofFields entries).idleWait = Settings.standard.idleWait := by
          simp only [Settings.ofFields, hIdle, Option.getD_none]
        have hOf := ofValue_of_plain hKeys hTruthy hEntries
        cases hTime : Value.field? entries "start_time" with
        | none =>
          refine ⟨_, 0, hOf, Int.le_refl 0, ?_, hWait⟩
          simp only [Settings.ofFields, hTime, Option.getD_none]
          rfl
        | some time =>
          obtain ⟨n, hPos, rfl⟩ := hStart time hTime
          refine ⟨_, n, hOf, hPos, ?_, hWait⟩
          simp only [Settings.ofFields, hTime, Option.getD_some]
  have hClock : Clock.start settings.startTime = .ok ⟨n⟩ := by
    have hNot : ¬ n < 0 := by omega
    simp only [hTime, Clock.start, checkNonNegative, hNot, if_false, Except.map]
  obtain ⟨s, hMake, hSame⟩ : ∃ s : Looper, State.make settings none .empty = .ok s ∧
      s.settings = settings := by
    rw [State.make, hClock]
    exact ⟨_, rfl, rfl⟩
  refine ⟨s, ?_, ?_⟩
  · rw [looperFor, hSettings]
    exact hMake
  · have hStandard : s.settings.checkWait = Settings.standard.checkWait := by
      simp only [Settings.checkWait, hSame, hIdle]
    rw [hStandard, Settings.checkWait_standard]

/-! ### What an action observes -/

def Action.counting? : Action → Option (Request Empty)
  | .dispatchAll => some .dispatchAll
  | .dispatchNext => some .dispatchNext
  | .stop => some .stop
  | _ => none

def number? : Reply → Option Nat
  | .count n => some n
  | .flag b => some (if b then 1 else 0)
  | _ => none

namespace Played

def Counts (strict : Bool) (x : Played) (n : Nat) : Prop :=
  ∃ a r reply, Action.ofValue? x.step.action = some a ∧ a.counting? = some r ∧
    ask strict r x.before = .ok reply x.after ∧ number? reply = some n

/-- The messages that were delivered before a step: all that were taken, but for one at most that the
worker of the session has not yet come to deliver. -/
def Delivered (x : Played) (ys : List Taking) : Prop :=
  ∃ late, x.before.takings = ys ++ late ∧ late.length ≤ 1 ∧
    (x.before.session = none → late = [])

/-- The checks that an action makes if it does not fail: what it has observed is compared with what
the step expects. -/
inductive Observes (strict : Bool) (x : Played) : List Check → Prop
  | counted {n : Nat} {expected : Value} {c : Check} (hCounts : x.Counts strict n)
      (hExpected : Value.field? x.step.fields "expect" = some expected)
      (hPassed : c.isPassed = Value.equal (.int n) expected) : Observes strict x [c]
  | uncompared {n : Nat} (hCounts : x.Counts strict n)
      (hNone : Value.field? x.step.fields "expect" = none) : Observes strict x []
  | dispatched {expected : List Value} {ys : List Taking} {c : Check}
      (hAction : Action.ofValue? x.step.action = some .expectDispatched)
      (hExpected : (x.step.field "tags" (.list [])).elements? = some expected)
      (hDelivered : x.Delivered ys)
      (hPassed : c.isPassed = Value.sameElements (ys.map (·.tag)) expected) : Observes strict x [c]
  | pending {c : Check} (hAction : Action.ofValue? x.step.action = some .expectPending)
      (hPassed : c.isPassed =
        Value.equal (.int x.before.queue.size) (x.step.field "count" (.int 0))) :
      Observes strict x [c]
  | silent (hAction : ∀ a, Action.ofValue? x.step.action = some a →
      a.counting? = none ∧ a ≠ .expectDispatched ∧ a ≠ .expectPending) : Observes strict x []

/-- What a step adds to the report, by how its action ended: a misuse is a check that passes if it
was expected, any other failure is a check that does not pass, and without a failure there are the
checks of the action itself, with one that does not pass if a misuse was expected. -/
inductive Adds (strict : Bool) (x : Played) : List Check → Prop
  | misuse {e : Failure} {c : Check} (hEnd : x.result = .error e) (hMisuse : e.isMisuse = true)
      (hPassed : c.isPassed = x.step.expectsMisuse) : Adds strict x [c]
  | failure {e : Failure} {c : Check} (hEnd : x.result = .error e) (hOther : e.isMisuse = false)
      (hPassed : c.isPassed = false) : Adds strict x [c]
  | success {own : List Check} (hEnd : x.result = .ok own) (hOwn : x.Observes strict own)
      (hExpects : x.step.expectsMisuse = false) : Adds strict x own
  | unraised {own : List Check} {c : Check} (hEnd : x.result = .ok own)
      (hOwn : x.Observes strict own) (hExpects : x.step.expectsMisuse = true)
      (hPassed : c.isPassed = false) : Adds strict x (own ++ [c])

/-- A step goes well if it expects a misuse and its action is one, or if it expects none, its action
does not fail, and what was observed is as expected. -/
def GoesWell (x : Played) : Prop :=
  match x.result with
  | .ok own => x.step.expectsMisuse = false ∧ ∀ c ∈ own, c.isPassed = true
  | .error e => x.step.expectsMisuse = true ∧ e.isMisuse = true

end Played

section Observing

variable {strict : Bool} {s t : Looper} {step : Step}

theorem isPassed_checkNow (s : Looper) (passed : Bool) (description : Text)
    (expected actual : Value) : (checkNow s passed description expected actual).isPassed = passed :=
  rfl

theorem observes_countCheck {x : Played} {n : Nat} (h : x.Counts strict n) :
    x.Observes strict (countCheck x.step x.after n) := by
  rw [countCheck]
  cases hExpected : Value.field? x.step.fields "expect" with
  | none => exact .uncompared h hExpected
  | some expected => exact .counted h hExpected (isPassed_checkNow _ _ _ _ _)

theorem observes_of_askCount {a : Action} {r : Request Empty} {own : List Check}
    (hAction : Action.ofValue? step.action = some a) (hCounting : a.counting? = some r)
    (hAnswers : ∃ result u, ask strict r s = .ofResult result u ∧
      ∀ reply, result = .ok reply → ∃ n, number? reply = some n)
    (hAct : askCount strict step r s = .ok own t) :
    Played.Observes strict ⟨step, s, .ok own, t⟩ own := by
  obtain ⟨reply, u, hAsk, hChecks⟩ := Outcome.bind_eq_ok.1 hAct
  obtain ⟨result, u', hAnswer, hNumbers⟩ := hAnswers
  have hSame : Outcome.ofResult result u' = .ofResult (.ok reply) u := hAnswer.symm.trans hAsk
  obtain ⟨n, hNumber⟩ := hNumbers reply (Outcome.ofResult_inj.1 hSame).1
  have hCounted : countCheck step u n = own ∧ u = t := by
    cases reply with
    | count k =>
      obtain rfl := Option.some.inj hNumber
      exact Outcome.ok.inj hChecks
    | flag b =>
      obtain rfl := Option.some.inj hNumber
      exact Outcome.ok.inj hChecks
    | _ => cases hNumber
  obtain ⟨rfl, rfl⟩ := hCounted
  exact observes_countCheck ⟨a, r, reply, hAction, hCounting, hAsk, hNumber⟩

theorem nil_of_askQuietly {r : Request Empty} {own : List Check}
    (h : askQuietly strict r s = .ok own t) : own = [] := by
  obtain ⟨reply, -, rfl⟩ := Outcome.map_eq_ok.1 h
  rfl

theorem nil_of_withDuration {v : Value} {k : Int → Outcome Looper (List Check)} {own : List Check}
    (h : withDuration v s k = .ok own t) (hk : ∀ n, k n = .ok own t → own = []) : own = [] := by
  rw [withDuration] at h
  cases hParse : Duration.parse v with
  | error e =>
    rw [hParse] at h
    cases h
  | ok n =>
    rw [hParse] at h
    exact hk n h

theorem observes_nil {a : Action} {own : List Check}
    (hAction : Action.ofValue? step.action = some a)
    (hSilent : a.counting? = none ∧ a ≠ .expectDispatched ∧ a ≠ .expectPending) (hOwn : own = []) :
    Played.Observes strict ⟨step, s, .ok own, t⟩ own := by
  subst hOwn
  refine .silent fun b hb => ?_
  obtain rfl := Option.some.inj (hAction.symm.trans hb)
  exact hSilent

end Observing

namespace InPlay

variable {given : Settings} {strict : Bool} {s t : Looper} {step : Step}

theorem exists_delivered {x : Played} (h : InPlay given x.before) :
    ∃ ys, x.Delivered ys ∧ deliveredTags x.before = ys.map (·.tag) := by
  obtain ⟨ys, late, hTakings, hRecords, hHolds⟩ := h.taken
  refine ⟨ys, ⟨late, hTakings, hHolds.length_le_one, fun hNone => ?_⟩, ?_⟩
  · exact (hNone ▸ hHolds).of_none.2
  · rw [deliveredTags, h.recordsOf_recorder, ← List.forall₂_eq_eq_eq, List.forall₂_map_left_iff,
      List.forall₂_map_right_iff]
    exact hRecords.imp fun _ _ hRecord => hRecord.tag

/-- **An action that does not fail makes the checks of what it has observed.** -/
theorem observes_of_act (h : InPlay given s) {own : List Check}
    (hAct : act strict step s = .ok own t) : Played.Observes strict ⟨step, s, .ok own, t⟩ own := by
  rw [act] at hAct
  cases hAction : Action.ofValue? step.action with
  | none =>
    rw [hAction] at hAct
    have hOwn : own = [] := by
      cases hWrite : s.write strict .main (.unknownAction step.action) with
      | error e => simp [hWrite] at hAct
      | ok u =>
        simp only [hWrite, Outcome.ok.injEq] at hAct
        exact hAct.1.symm
    subst hOwn
    refine .silent fun a ha => ?_
    cases hAction.symm.trans ha
  | some action =>
    rw [hAction] at hAct
    cases action with
    | send =>
      refine observes_nil hAction (by decide) ?_
      simp only [send] at hAct
      split at hAct
      · exact nil_of_withDuration hAct fun n => nil_of_askQuietly
      · exact nil_of_withDuration hAct fun n => nil_of_askQuietly
    | remove =>
      refine observes_nil hAction (by decide) ?_
      simp only [Scenario.remove] at hAct
      split at hAct
      · cases hAct
      · exact nil_of_askQuietly hAct
    | moveTime =>
      refine observes_nil hAction (by decide) ?_
      exact nil_of_withDuration hAct fun n => nil_of_askQuietly
    | dispatchAll =>
      obtain ⟨result, u, hAnswer, -, hCount⟩ := h.exists_dispatchAll strict
      refine observes_of_askCount hAction rfl ⟨result, u, hAnswer, fun reply hReply => ?_⟩ hAct
      obtain ⟨n, rfl⟩ := hCount reply hReply
      exact ⟨n, rfl⟩
    | dispatchNext =>
      obtain ⟨result, u, hAnswer, -, hFlag⟩ := h.exists_dispatchNext strict
      refine observes_of_askCount hAction rfl ⟨result, u, hAnswer, fun reply hReply => ?_⟩ hAct
      obtain ⟨b, rfl⟩ := hFlag reply hReply
      exact ⟨_, rfl⟩
    | start =>
      refine observes_nil hAction (by decide) ?_
      simp only [start] at hAct
      split at hAct
      · exact nil_of_askQuietly hAct
      · cases hAct
    | stop =>
      obtain ⟨result, u, hAnswer, -, -, hResult⟩ := h.exists_stop strict
      refine observes_of_askCount hAction rfl ⟨result, u, hAnswer, fun reply hReply => ?_⟩ hAct
      rcases hResult with ⟨n, hCount⟩ | ⟨e, hError, -⟩
      · obtain rfl := Except.ok.inj (hCount.symm.trans hReply)
        exact ⟨n, rfl⟩
      · cases hError.symm.trans hReply
    | expectDispatched =>
      simp only [expectDispatched] at hAct
      cases hExpected : (step.field "tags" (.list [])).elements? with
      | none =>
        rw [hExpected] at hAct
        cases hAct
      | some expected =>
        rw [hExpected] at hAct
        simp only at hAct
        split at hAct
        · cases hAct
        · obtain ⟨rfl, rfl⟩ := Outcome.ok.inj hAct
          obtain ⟨ys, hDelivered, hTags⟩ := exists_delivered (x := ⟨step, s, .ok _, s⟩) h
          refine .dispatched hAction hExpected hDelivered ?_
          rw [isPassed_checkNow, hTags]
    | expectPending =>
      obtain ⟨rfl, rfl⟩ := Outcome.ok.inj hAct
      exact .pending hAction rfl

theorem adds_of_act (h : InPlay given s) {result : Except Failure (List Check)}
    (hAct : act strict step s = .ofResult result t) :
    Played.Adds strict ⟨step, s, result, t⟩ (Played.adds ⟨step, s, result, t⟩) := by
  cases result with
  | error e =>
    simp only [Played.adds, contribution]
    split
    · rename_i hMisuse
      exact .misuse rfl hMisuse rfl
    · rename_i hOther
      exact .failure rfl (by simpa using hOther) rfl
  | ok own =>
    have hOwn := h.observes_of_act hAct
    simp only [Played.adds, contribution]
    split
    · rename_i hExpects
      exact .unraised rfl hOwn hExpects rfl
    · rename_i hExpects
      rw [List.append_nil]
      exact .success rfl hOwn (by simpa using hExpects)

end InPlay

theorem Played.all_adds_iff (x : Played) :
    x.adds.all Check.isPassed = true ↔ x.GoesWell := by
  obtain ⟨step, before, result, after⟩ := x
  cases result with
  | error e =>
    simp only [adds, contribution, GoesWell]
    cases hMisuse : e.isMisuse <;> simp [Check.isPassed, checkNow, Value.truthy]
  | ok own =>
    simp only [adds, contribution, GoesWell]
    cases hExpects : step.expectsMisuse <;> simp [Check.isPassed, checkNow, Value.truthy]

/-- A mapping stands for a step, if its action can be written or need not be. -/
def IsStep (strict : Bool) (v : Value) : Prop :=
  ∃ fields, v.entries? = some fields ∧
    (((Value.field? fields "action").getD (.str "")).isWritable = true ∨
      strict = false ∧ ((Value.field? fields "expect_error").map (·.truthy)).getD false = false)

instance (strict : Bool) (v : Value) : Decidable (IsStep strict v) :=
  decidable_of_iff
    ((v.entries?.any fun fields =>
      ((Value.field? fields "action").getD (.str "")).isWritable ||
        !strict && !((Value.field? fields "expect_error").map (·.truthy)).getD false) = true)
    (by simp [IsStep, Option.any_eq_true])

theorem IsStep.not_endsRun {strict : Bool} {v : Value} (h : IsStep strict v) (index : Nat)
    (f : Failure) : ¬ EndsRun strict index v f := by
  obtain ⟨fields, hFields, hStep⟩ := h
  rintro (hError | ⟨step, hOf, ⟨hAction, hShown⟩, -⟩)
  · rw [Step.ofValue, hFields] at hError
    cases hError
  · rw [Step.ofValue, hFields] at hOf
    obtain rfl := Except.ok.inj hOf
    rcases hStep with hWritable | ⟨hStrict, hExpects⟩
    · rw [hWritable] at hAction
      cases hAction
    · rw [hStrict, hExpects] at hShown
      rcases hShown with hTrue | hTrue <;> cases hTrue

/-- **The verdict of a scenario.**  A scenario with plain settings, all of whose steps are mappings
with actions that can be written or need not be, is played from its first step to its last, whatever
is around the run.  The report has the checks that each step adds, step after step, and no others.
So it has passed if, and only if, all steps go well. -/
theorem verdict_of_run (e : Surroundings) {p p' : Player} {source : Source}
    (hTake : p.take source = .ok p') {fields : List (Value × Value)}
    (hFields : p'.scenario.entries? = some fields)
    (hBlock : IsPlainBlock ((Value.field? fields "looper").getD .none)) {values : List Value}
    (hValues : stepsOf fields = .ok values) (hSteps : ∀ v ∈ values, IsStep e.strictLog v) :
    ∃ report s xs t u,
      p.runIn e source = (.played (.ok report u), { p' with looper := some u }) ∧
      looperFor fields = .ok s ∧ Course e 0 s xs t ∧
      values.mapIdx Step.ofValue = xs.map (.ok ·.step) ∧
      report.checks = xs.flatMap Played.adds ∧ (∀ x ∈ xs, x.Adds e.strictLog x.adds) ∧
      (report.passed = true ↔ ∀ x ∈ xs, x.GoesWell) := by
  obtain ⟨s, hLooper, hWait⟩ := exists_looperFor hBlock
  obtain ⟨hPlay, -⟩ := inPlay_of_looperFor hLooper
  rcases hPlay.exists_runSteps e 0 values with ⟨xs, t, hCourse, hRun, hAll⟩ |
    ⟨xs, t, early, v, late, f, log, -, -, rfl, -, hEnds⟩
  · obtain ⟨hLast, hPlayed⟩ := hPlay.course hCourse
    obtain ⟨result, u, hFinish, -, -, hResult⟩ := hLast.exists_finish e
    cases result with
    | error f => cases hWait.symm.trans (hResult f rfl)
    | ok _ =>
      obtain ⟨report, hReport, hChecks⟩ : ∃ report,
          p.runIn e source = (.played (.ok report u), { p' with looper := some u }) ∧
          report.checks = xs.flatMap Played.adds := by
        rw [Player.runIn, hTake]
        simp only [Player.playKept, Player.equip, hFields, hLooper, Except.map, Player.play,
          Option.getD_some, playOn, hValues, hRun, Outcome.bind, hFinish]
        exact ⟨_, rfl, rfl⟩
      simp only [Nat.zero_add] at hAll
      refine ⟨report, s, xs, t, u, hReport, hLooper, hCourse, hAll, hChecks, ?_, ?_⟩
      · intro x hx
        obtain ⟨hBefore, hAct⟩ := hPlayed x hx
        exact hBefore.adds_of_act hAct
      · rw [Report.passed, hChecks, List.all_flatMap, List.all_eq_true]
        exact forall₂_congr fun x _ => x.all_adds_iff
  · exact absurd hEnds ((hSteps v (by simp)).not_endsRun _ f)

def Performance.verdicts : Performance → List Bool
  | .played (.ok report _) => report.checks.map Check.isPassed
  | _ => []

/-- Steps that go well, and steps that go wrong in all ways there are. -/
def mixedSteps : List Value :=
  [.dict [(.str "action", .str "send"), (.str "tag", .int 1)],
    .dict [(.str "action", .str "send"), (.str "tag", .int 3), (.str "delay", .int 5)],
    .dict [(.str "action", .str "dispatch_all"), (.str "expect", .int 1)],
    .dict [(.str "action", .str "expect_dispatched"), (.str "tags", .list [.int 1])],
    .dict [(.str "action", .str "expect_pending"), (.str "count", .int 2)],
    .dict [(.str "action", .str "send"), (.str "delay", .bool true)],
    .dict [(.str "action", .str "remove"), (.str "tag", .int 3), (.str "expect_error", .bool true)],
    .dict [(.str "action", .str "dispatch_all"), (.str "expect", .int 0),
      (.str "expect_error", .int 1)],
    .dict [(.str "action", .str "start_auto_dispatch")],
    .dict [(.str "action", .str "dispatch_next"), (.str "expect_error", .bool true)],
    .dict [(.str "action", .int 7)]]

def mixed : List (Value × Value) :=
  [(.str "looper", .dict [(.str "start_time", .int 2)]), (.str "steps", .list mixedSteps)]

theorem verdict_of_mixed :
    ∃ (report : Report) (xs : List Played) (u : Looper),
      (Player.empty.run (.mapping mixed)).1 = .played (.ok report u) ∧ xs.length = 11 ∧
      report.checks = xs.flatMap Played.adds ∧ (∀ x ∈ xs, x.Adds true x.adds) ∧
      report.checks.map Check.isPassed = [true, true, false, false, false, true, false, true] ∧
      ¬ ∀ x ∈ xs, x.GoesWell := by
  have hBlock : Value.field? mixed "looper" = some (.dict [(.str "start_time", .int 2)]) :=
    field?_cons_of_same (by decide +kernel)
  have hList : Value.field? mixed "steps" = some (.list mixedSteps) :=
    (field?_cons_of_other (by decide +kernel)).trans (field?_cons_of_same (by decide +kernel))
  have hScenario : Value.field? mixed "scenario" = none :=
    (field?_cons_of_other (by decide +kernel)).trans (field?_cons_of_other (by decide +kernel))
  have hTake : Player.empty.take (.mapping mixed) = .ok ⟨.dict mixed, none⟩ := by
    rw [Player.take, inside, hScenario, Option.getD_none]
    rfl
  have hPlain : IsPlainBlock ((Value.field? mixed "looper").getD .none) := by
    rw [hBlock]
    refine Or.inr ⟨_, rfl, ?_, ?_⟩
    · simp
    · have hTime : Value.field? [(.str "start_time", .int 2)] "start_time" = some (.int 2) :=
        field?_cons_of_same (by decide +kernel)
      rintro time hFound
      exact ⟨2, by decide, Option.some.inj (hFound.symm.trans hTime)⟩
  have hValues : stepsOf mixed = .ok mixedSteps := by
    rw [stepsOf, hList]
    rfl
  obtain ⟨report, -, xs, -, u, hRun, -, -, hAll, hChecks, hAdds, hPassed⟩ :=
    verdict_of_run .patient hTake rfl hPlain hValues (by decide +kernel)
  have hSeen : (Player.empty.run (.mapping mixed)).1.verdicts =
      [true, true, false, false, false, true, false, true] := by
    decide +kernel
  rw [Player.run, hRun] at hSeen
  have hLength := congrArg List.length hAll
  rw [List.length_mapIdx, List.length_map] at hLength
  refine ⟨report, xs, u, by rw [Player.run, hRun], hLength.symm, hChecks, hAdds, hSeen, ?_⟩
  intro hWell
  have hTrue : (report.checks.map Check.isPassed).all id = true := by
    simpa [Report.passed] using hPassed.2 hWell
  rw [show report.checks.map Check.isPassed = _ from hSeen] at hTrue
  cases hTrue

def Performance.isUnwritten : Performance → Bool
  | .played (.failed .tooLongToWrite _) => true
  | _ => false

theorem Performance.exists_of_isUnwritten {played : Performance} (h : played.isUnwritten = true) :
    ∃ s, played = .played (.failed .tooLongToWrite s) := by
  unfold isUnwritten at h
  split at h
  · exact ⟨_, rfl⟩
  · cases h

/-- The first step has an integer of more than 4300 digits as its action. -/
def unwritable : List (Value × Value) :=
  [(.str "steps", .list [.dict [(.str "action", .int (16 ^ 4000 - 1)),
    (.str "expect_error", .bool true)]])]

/-- The run of a scenario is ended by an action that cannot be written. -/
theorem ended_by_action :
    ∃ s, (Player.empty.run (.mapping unwritable)).1 = .played (.failed .tooLongToWrite s) :=
  Performance.exists_of_isUnwritten (by decide +kernel)

end VirtualLooper.Scenario
