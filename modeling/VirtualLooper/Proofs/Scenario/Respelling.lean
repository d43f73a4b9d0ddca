import VirtualLooper.Proofs.Duration.Spelling
import VirtualLooper.Proofs.Scenario.Keeping
import VirtualLooper.Proofs.Value.Fields

/-!
# Respelt durations

The steps of a scenario give durations as delays, due times and amounts by which the clock is moved.
Such a duration is read and then never looked at again, so two steps that spell it differently act
alike on every looper (`act_of_respelt`): they fail alike, add the same checks and log the same lines.
Hence scenarios in which some durations are spelt in another way are played alike, from whatever
source they come and as often as they are played again; `runs_of_respelt` says so of all runs of a
player, together with the spellings that there are.
-/

namespace VirtualLooper

/-- Both spell the same number of milliseconds, one of no more than 53 bits. -/
def Duration.Respelt (v w : Value) : Prop :=
  ∃ n : Int, n.natAbs ≤ 2 ^ 53 ∧ Spells n v ∧ Spells n w

theorem Duration.parse_of_respelt {v w : Value} (h : Respelt v w) : parse v = parse w := by
  obtain ⟨n, hBound, hv, hw⟩ := h
  rw [parse_of_spells hBound hv, parse_of_spells hBound hw]

namespace Scenario

/-! ### Steps -/

def durationNames : List String := ["delay", "at", "by"]

/-- The fields of two steps that differ in the spelling of durations at most. -/
def StepFieldsRespelt : (es fs : List (Value × Value)) → Prop :=
  FieldsAlike fun name v w => name ∈ durationNames ∧ Duration.Respelt v w

section Steps

variable {strict : Bool} {step : Step} {fs : List (Value × Value)} {s : Looper}

theorem field?_of_respelt (h : StepFieldsRespelt step.fields fs) (name : String)
    (hName : name ∉ durationNames) : Value.field? step.fields name = Value.field? fs name :=
  h.field?_eq fun _ _ hR => hName hR.1

theorem withDuration_of_respelt (h : StepFieldsRespelt step.fields fs) (name : String)
    (absent : Value) (s : Looper) (k : Int → Outcome Looper (List Check)) :
    withDuration ((Value.field? step.fields name).getD absent) s k =
      withDuration ((Value.field? fs name).getD absent) s k := by
  rcases h.field? name with ⟨hes, hfs⟩ | ⟨v, w, hes, hfs, rfl | hR⟩
  · rw [hes, hfs]
  · rw [hes, hfs]
  · rw [hes, hfs, Option.getD_some, Option.getD_some, withDuration, withDuration,
      Duration.parse_of_respelt hR.2]

theorem send_of_respelt (h : StepFieldsRespelt step.fields fs) :
    send strict step s = send strict { step with fields := fs } s := by
  have hTag : Value.field? step.fields "tag" = Value.field? fs "tag" :=
    field?_of_respelt h _ (by decide)
  have hDelay := withDuration_of_respelt h "delay" (.int 0) s
  have hAt := withDuration_of_respelt h "at" .none s
  simp only [send, Step.field, hTag]
  rcases h.field? "at" with ⟨hes, hfs⟩ | ⟨v, w, hes, hfs, -⟩
  · simp only [hes, hfs, hDelay]
  · simp only [hes, hfs, Option.getD_some] at hAt ⊢
    exact hAt _

/-- **The action of a step does the same**, however its durations are spelt. -/
theorem act_of_respelt (h : StepFieldsRespelt step.fields fs) :
    act strict step s = act strict { step with fields := fs } s := by
  have hExpect : Value.field? step.fields "expect" = Value.field? fs "expect" :=
    field?_of_respelt h _ (by decide)
  have hCount : countCheck step = countCheck { step with fields := fs } := by
    funext s n
    simp only [countCheck, hExpect]
  have hAsk : askCount strict step = askCount strict { step with fields := fs } := by
    funext r s
    simp only [askCount, hCount]
  rw [act, act]
  cases Action.ofValue? step.action with
  | none => rfl
  | some action =>
    cases action with
    | send => exact send_of_respelt h
    | remove =>
      show remove strict step s = remove strict { step with fields := fs } s
      rw [remove, remove, Step.field, Step.field, field?_of_respelt h "tag" (by decide)]
    | moveTime => exact withDuration_of_respelt h "by" (.int 0) s _
    | dispatchAll | dispatchNext | stop => simp only [hAsk]
    | start => rfl
    | expectDispatched =>
      simp only [expectDispatched, Step.field, field?_of_respelt h "tags" (by decide)]
    | expectPending =>
      simp only [expectPending, Step.field, field?_of_respelt h "count" (by decide)]

theorem runStep_of_respelt (h : StepFieldsRespelt step.fields fs) :
    runStep strict step s = runStep strict { step with fields := fs } s := by
  rw [runStep, runStep, act_of_respelt h]
  rfl

def StepRespelt (v w : Value) : Prop :=
  v = w ∨ ∃ es fs, v.entries? = some es ∧ w.entries? = some fs ∧ StepFieldsRespelt es fs

/-- **Steps are run alike**, however their durations are spelt. -/
theorem runSteps_of_respelt {vs ws : List Value} (h : List.Forall₂ StepRespelt vs ws)
    (e : Surroundings) (index : Nat) (s : Looper) :
    runSteps e index vs s = runSteps e index ws s := by
  induction h generalizing index s with
  | nil => rfl
  | @cons v w vs ws hHead hTail ih =>
    have hRest : runSteps e (index + 1) vs = runSteps e (index + 1) ws := funext (ih (index + 1))
    rcases hHead with rfl | ⟨es, fs, hes, hfs, hFields⟩
    · rw [runSteps, runSteps, hRest]
    · have hAction : Value.field? es "action" = Value.field? fs "action" :=
        hFields.field?_eq fun _ _ hR => absurd hR.1 (by decide)
      have hMisuse : Value.field? es "expect_error" = Value.field? fs "expect_error" :=
        hFields.field?_eq fun _ _ hR => absurd hR.1 (by decide)
      rw [runSteps, runSteps, Step.ofValue, Step.ofValue, hes, hfs, hRest]
      simp only [hAction, hMisuse]
      rw [runStep_of_respelt hFields]

end Steps

/-! ### Scenarios -/

def StepsRespelt (v w : Value) : Prop :=
  ∃ vs ws, v.elements? = some vs ∧ w.elements? = some ws ∧ List.Forall₂ StepRespelt vs ws

/-- Two scenarios whose steps differ in the spelling of durations at most. -/
def Respelt (v w : Value) : Prop :=
  v = w ∨ ∃ es fs, v.entries? = some es ∧ w.entries? = some fs ∧
    FieldsAlike (fun name v w => name = "steps" ∧ StepsRespelt v w) es fs

/-- **Scenarios are played alike**, however their durations are spelt. -/
theorem playKept_of_respelt {p q : Player} (h : Respelt p.scenario q.scenario) (e : Surroundings) :
    (p.playKept e).1 = (q.playKept e).1 := by
  rcases h with hSame | ⟨es, fs, hes, hfs, hFields⟩
  · exact (Player.playKept_congr hSame e).1
  · have hLooper : Value.field? es "looper" = Value.field? fs "looper" :=
      hFields.field?_eq fun _ _ hR => absurd hR.1 (by decide)
    have hName : Value.field? es "name" = Value.field? fs "name" :=
      hFields.field?_eq fun _ _ hR => absurd hR.1 (by decide)
    have hOn : playOn e es = playOn e fs := by
      funext s
      rcases hFields.field? "steps" with ⟨hes, hfs⟩ | ⟨v, w, hes, hfs, rfl | ⟨-, hSteps⟩⟩
      · simp only [playOn, stepsOf, hes, hfs, hName]
      · simp only [playOn, stepsOf, hes, hfs, hName]
      · obtain ⟨vs, ws, hvs, hws, hAll⟩ := hSteps
        simp only [playOn, stepsOf, hes, hfs, Option.getD_some, hvs, hws, hName,
          runSteps_of_respelt hAll]
    have hMake : looperFor es = looperFor fs := by rw [looperFor, looperFor, hLooper]
    simp only [Player.playKept, Player.equip, hes, hfs, hMake]
    cases looperFor fs with
    | error f => rfl
    | ok s => simp only [Except.map, Player.play, hes, hfs, Option.getD_some, hOn]

/-- Two sources of the same scenario, up to the spelling of durations. -/
def Source.Respelt (source source' : Source) : Prop :=
  source = source' ∨ source ≠ .kept ∧ source' ≠ .kept ∧
    ∃ p p', Player.empty.take source = .ok p ∧ Player.empty.take source' = .ok p' ∧
      Scenario.Respelt p.scenario p'.scenario

namespace Player

variable {p p' : Player} {source source' : Source}

/-- Players that have read the same scenario play it alike, and keep it. -/
theorem runIn_of_taken {q q' : Player} (hTake : p.take source = .ok q)
    (hTake' : p'.take source' = .ok q') (h : Respelt q.scenario q'.scenario) (e : Surroundings) :
    (p.runIn e source).1 = (p'.runIn e source').1 ∧
      Respelt (p.runIn e source).2.scenario (p'.runIn e source').2.scenario := by
  rw [runIn, runIn, hTake, hTake']
  refine ⟨playKept_of_respelt h e, ?_⟩
  rw [(playKept_congr (rfl : q.scenario = q.scenario) e).2,
    (playKept_congr (rfl : q'.scenario = q'.scenario) e).2]
  exact h

/-- One run of players that keep the same scenario, up to the spelling of durations. -/
theorem runIn_of_respelt (h : Respelt p.scenario p'.scenario) (e : Surroundings)
    (hSource : source.Respelt source') :
    (p.runIn e source).1 = (p'.runIn e source').1 ∧
      Respelt (p.runIn e source).2.scenario (p'.runIn e source').2.scenario := by
  rcases hSource with rfl | ⟨hNew, hNew', q, q', hTake, hTake', hRespelt⟩
  · by_cases hKept : source = .kept
    · subst hKept
      exact runIn_of_taken rfl rfl h e
    · rcases take_of_ne_kept p p' hKept with ⟨f, hTake, hTake'⟩ | ⟨q, q', hTake, hTake', hSame⟩
      · rw [runIn, runIn, hTake, hTake']
        exact ⟨rfl, h⟩
      · exact runIn_of_taken hTake hTake' (Or.inl hSame) e
  · have hRead : ∀ {p : Player} {source q}, source ≠ .kept → empty.take source = .ok q →
        ∃ q', p.take source = .ok q' ∧ q'.scenario = q.scenario := by
      intro p source q hNew hTake
      rcases take_of_ne_kept p empty hNew with ⟨f, -, hError⟩ | ⟨q', q'', hOk, hEmpty, hSame⟩
      · cases hTake.symm.trans hError
      · exact ⟨q', hOk, hSame.trans (congrArg _ (Except.ok.inj (hEmpty.symm.trans hTake)))⟩
    obtain ⟨r, hRead₁, hr⟩ := hRead (p := p) hNew hTake
    obtain ⟨r', hRead₂, hr'⟩ := hRead (p := p') hNew' hTake'
    exact runIn_of_taken hRead₁ hRead₂ (hr ▸ hr' ▸ hRespelt) e

theorem runs_of_alike (h : Respelt p.scenario p'.scenario)
    {sources sources' : List (Surroundings × Source)}
    (hSources : List.Forall₂ (fun r r' => r.1 = r'.1 ∧ r.2.Respelt r'.2) sources sources') :
    (p.runs sources).1 = (p'.runs sources').1 := by
  induction hSources generalizing p p' with
  | nil => rfl
  | @cons head head' _ _ hHead hTail ih =>
    obtain ⟨e, source⟩ := head
    obtain ⟨e', source'⟩ := head'
    obtain ⟨rfl, hRespelt⟩ := hHead
    obtain ⟨hFirst, hKept⟩ := runIn_of_respelt h e hRespelt
    rw [runs, runs]
    exact congrArg₂ List.cons hFirst (ih hKept)

/-- **All spellings of a duration are the same number of milliseconds, and the same scenario.**  A
whole number of milliseconds of no more than 53 bits is read from each of its spellings, one of which
is its float.  And whatever a player is given to play, one run after the other, to spell the
durations in the steps in another way changes nothing about any of the runs, with whatever
surroundings. -/
theorem runs_of_respelt :
    (∀ n : Int, n.natAbs ≤ 2 ^ 53 → Duration.Spells n (.float (.ofInt n)) ∧
      ∀ v, Duration.Spells n v → Duration.parse v = .ok n) ∧
    ∀ (p : Player) (sources sources' : List (Surroundings × Source)),
      List.Forall₂ (fun r r' => r.1 = r'.1 ∧ r.2.Respelt r'.2) sources sources' →
        (p.runs sources).1 = (p.runs sources').1 :=
  ⟨fun _ hBound => ⟨.float (Binary64.place?_ofInt hBound),
      fun _ hSpells => Duration.parse_of_spells hBound hSpells⟩,
    fun p _ _ hSources => runs_of_alike (p := p) (Or.inl rfl) hSources⟩

/-- A message is sent with a delay, the clock is moved by some amount, and the message is expected. -/
def delayed (delay amount : Value) : List (Value × Value) :=
  [(.str "steps", .list [
    .dict [(.str "action", .str "send"), (.str "tag", .int 1), (.str "delay", delay)],
    .dict [(.str "action", .str "move_time"), (.str "by", amount)],
    .dict [(.str "action", .str "dispatch_all"), (.str "expect", .int 1)]])]

theorem respelt_delayed {delay delay' amount amount' : Value} (hDelay : Duration.Respelt delay delay')
    (hAmount : Duration.Respelt amount amount') :
    Source.Respelt (.mapping (delayed delay amount)) (.mapping (delayed delay' amount')) := by
  have hTake : ∀ delay amount,
      empty.take (.mapping (delayed delay amount)) = .ok ⟨.dict (delayed delay amount), none⟩ := by
    intro delay amount
    have hNone : Value.field? (delayed delay amount) "scenario" = none := by
      have hSame : Value.same (.str "scenario") (.str "steps") = false := by decide +kernel
      simp [delayed, Value.field?, Value.lookup?, hSame]
    rw [take, inside, hNone, Option.getD_none]
    rfl
  refine Or.inr ⟨by simp, by simp, _, _, hTake _ _, hTake _ _, Or.inr ⟨_, _, rfl, rfl, ?_⟩⟩
  refine .cons ⟨rfl, Or.inr ⟨"steps", rfl, rfl, _, _, rfl, rfl, ?_⟩⟩ .nil
  refine .cons (Or.inr ⟨_, _, rfl, rfl, ?_⟩) (.cons (Or.inr ⟨_, _, rfl, rfl, ?_⟩)
    (.cons (Or.inl rfl) .nil))
  · exact .cons ⟨rfl, Or.inl rfl⟩ (.cons ⟨rfl, Or.inl rfl⟩
      (.cons ⟨rfl, Or.inr ⟨"delay", rfl, by decide, hDelay⟩⟩ .nil))
  · exact .cons ⟨rfl, Or.inl rfl⟩ (.cons ⟨rfl, Or.inr ⟨"by", rfl, by decide, hAmount⟩⟩ .nil)

/-- Five seconds in four spellings, and the runs of two scenarios with these, each played twice. -/
theorem runs_of_five_seconds :
    Duration.parse (.str "5s") = .ok 5000 ∧ Duration.parse (.str " 5000 ms ") = .ok 5000 ∧
      (empty.runs [(.patient, .mapping (delayed (.str "5s") (.int 5000))), (.patient, .kept)]).1 =
        (empty.runs [(.patient, .mapping (delayed (.str " 5000 ms ") (.float (.ofInt 5000)))),
          (.patient, .kept)]).1 := by
  have hBound : Int.natAbs 5000 ≤ 2 ^ 53 := by decide
  have hSeconds : Duration.Spells 5000 (.str "5s") :=
    .text [] [] [] .seconds 5 rfl (by simp) (by simp) (by simp)
  have hMillis : Duration.Spells 5000 (.str " 5000 ms ") :=
    .text [' '] [' '] [' '] .millis 5000 rfl (List.forall_mem_singleton.2 (by decide))
      (List.forall_mem_singleton.2 (by decide)) (List.forall_mem_singleton.2 (by decide))
  obtain ⟨hFloat, hParse⟩ := runs_of_respelt.1 5000 hBound
  refine ⟨hParse _ hSeconds, hParse _ hMillis, runs_of_respelt.2 empty _ _ ?_⟩
  exact .cons ⟨rfl, respelt_delayed ⟨5000, hBound, hSeconds, hMillis⟩ ⟨5000, hBound, .int, hFloat⟩⟩
    (.cons ⟨rfl, Or.inl rfl⟩ .nil)

end Player

end Scenario

end VirtualLooper
