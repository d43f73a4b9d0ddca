import VirtualLooper.Proofs.Scenario.Course

/-!
# Where a scenario leaves its looper

A scenario whose steps are over stops the session that one of them may have left on.  So does a
scenario whose steps have failed, as long as the failures are those of actions.  But what is no
mapping where a step should be ends the run before anything is stopped, and so does a step whose
action would have to be written and cannot be.  `over_or_cut` says of any scenario, whatever it is
made of and however far the worker comes between the steps, that its run comes to an end in one of
these ways; `left_on_by_number` is a run of the second kind.
-/

namespace VirtualLooper.Scenario

theorem inPlay_of_looperFor {fields : List (Value × Value)} {s : Looper}
    (h : looperFor fields = .ok s) : InPlay s.settings s ∧ s.session = none := by
  rw [looperFor] at h
  cases hSettings : Settings.ofValue ((Value.field? fields "looper").getD .none) with
  | error e => simp [hSettings, bind, Except.bind] at h
  | ok settings =>
    simp only [hSettings, bind, Except.bind] at h
    obtain ⟨clock, rfl⟩ := State.spec_of_make h
    exact ⟨⟨rfl, rfl, .empty settings, fun m hm => absurd hm List.not_mem_nil, [], [], rfl, .nil,
      .empty⟩, rfl⟩

/-- An entry of a report shows a message that was taken: its tag, who took it, and when it was
received, which was not before it was taken. -/
def IsShown (e : Surroundings) (settings : Settings) (d : Delivery) (x : Taking) : Prop :=
  d.tag = x.tag ∧ d.thread = .str (settings.nameAmong e.number x.thread) ∧
    ∃ time : Int, x.time ≤ time ∧ d.time = .int time

/-- The session of a scenario is over, and its report shows all messages that were taken. -/
def IsOver (e : Surroundings) : Outcome Looper Report → Prop
  | .ok report s =>
    s.session = none ∧ List.Forall₂ (IsShown e s.settings) report.dispatched s.takings
  | .failed _ s => s.session = none
  | _ => False

/-- A scenario was ended by one of its steps, and its looper is as the steps before have left it, but
for the log. -/
def IsCutShort (e : Surroundings) (fields : List (Value × Value)) (o : Outcome Looper Report) :
    Prop :=
  ∃ s xs t early v late f log, looperFor fields = .ok s ∧
    stepsOf fields = .ok (early ++ v :: late) ∧ Course e 0 s xs t ∧
    early.mapIdx Step.ofValue = xs.map (.ok ·.step) ∧ EndsRun e.strictLog early.length v f ∧
    o = .failed f { t with log }

theorem InPlay.shown {given : Settings} {s : Looper} (h : InPlay given s) (e : Surroundings)
    (hNone : s.session = none) :
    List.Forall₂ (IsShown e s.settings) ((s.recordsOf recorder).map (delivery e s.settings))
      s.takings := by
  rw [h.recordsOf_recorder, List.forall₂_map_left_iff]
  refine (h.taken_of_empty (h.memory_of_none hNone)).imp fun r x hRecord => ?_
  refine ⟨hRecord.tag, ?_, r.time, hRecord.time, rfl⟩
  rw [delivery, hRecord.thread]

theorem spec_playOn (e : Surroundings) {fields : List (Value × Value)} {s : Looper}
    (h : looperFor fields = .ok s) :
    IsOver e (playOn e fields s) ∨ IsCutShort e fields (playOn e fields s) := by
  obtain ⟨hPlay, hNone⟩ := inPlay_of_looperFor h
  rw [playOn]
  cases hSteps : stepsOf fields with
  | error f => exact Or.inl hNone
  | ok values =>
    simp only
    rcases hPlay.exists_runSteps e 0 values with ⟨xs, t, hCourse, hRun, -⟩ |
      ⟨xs, t, early, v, late, f, log, hCourse, hRun, rfl, hEarly, hEnds⟩
    · obtain ⟨result, u, hFinish, hLast, hOver, -⟩ := (hPlay.course hCourse).1.exists_finish e
      refine Or.inl ?_
      rw [hRun]
      simp only [Outcome.bind, hFinish]
      cases result with
      | error f => exact hOver
      | ok _ => exact ⟨hOver, hLast.shown e hOver⟩
    · simp only [Nat.zero_add] at hEarly hEnds
      exact Or.inr ⟨s, xs, t, early, v, late, f, log, h, hSteps, hCourse, hEarly, hEnds,
        by rw [hRun]; rfl⟩

theorem isSome_state? {e : Surroundings} {fields : List (Value × Value)}
    {o : Outcome Looper Report} (h : IsOver e o ∨ IsCutShort e fields o) :
    o.state?.isSome = true := by
  rcases h with hOver | ⟨s, xs, t, early, v, late, f, log, -, -, -, -, -, rfl⟩
  · cases o with
    | ok report s => rfl
    | failed f s => rfl
    | _ => cases hOver
  · rfl

/-- **A scenario leaves no session on**, unless it is ended by something that is no step, or by a
step whose action would have to be written and cannot be.  Then it leaves its looper as it was before
that step.  A scenario that is refused leaves the looper of the run before alone. -/
theorem over_or_cut (e : Surroundings) (p : Player) (source : Source) :
    (∃ f, (p.runIn e source).1 = .refused f ∧ (p.runIn e source).2.looper = p.looper) ∨
      ∃ o fields, (p.runIn e source).1 = .played o ∧
        (p.runIn e source).2.scenario.entries? = some fields ∧
        (p.runIn e source).2.looper = o.state? ∧ (IsOver e o ∨ IsCutShort e fields o) := by
  rw [Player.runIn]
  cases hTake : p.take source with
  | error f => exact Or.inl ⟨f, rfl, rfl⟩
  | ok p' =>
    have hKept := Player.looper_of_take hTake
    simp only [Player.playKept, Player.equip]
    cases hEntries : p'.scenario.entries? with
    | none => exact Or.inl ⟨_, rfl, hKept⟩
    | some fields =>
      simp only
      cases hLooper : looperFor fields with
      | error f => exact Or.inl ⟨f, rfl, hKept⟩
      | ok s =>
        have hEnd := spec_playOn e hLooper
        simp only [Except.map, Player.play, hEntries, Option.getD_some]
        refine Or.inr ⟨_, fields, rfl, rfl, ?_, hEnd⟩
        obtain ⟨t, hState⟩ := Option.isSome_iff_exists.1 (isSome_state? hEnd)
        simp only [hState, Option.some_or]

def leftOn : List Value :=
  [.dict [(.str "action", .str "send"), (.str "tag", .int 1)],
    .dict [(.str "action", .str "start_auto_dispatch")]]

/-- The worker comes to nothing before the scenario stops it, and then delivers the message. -/
example :
    (match (Player.empty.runIn { Surroundings.patient with pace := fun _ _ => 0 }
        (.mapping [(.str "steps", .list leftOn)])).1 with
      | .played (.ok report s) => report.dispatched.length = 1 && s.session.isNone
      | _ => false) = true := by
  decide +kernel

/-- Then comes a number. -/
def endedByNumber : List (Value × Value) := [(.str "steps", .list (leftOn ++ [.int 5]))]

/-- The number ends the run, and leaves auto-dispatch on. -/
theorem left_on_by_number :
    ∃ s : Looper, (Player.empty.run (.mapping endedByNumber)).1 =
        .played (.failed (.notMapping .int "get") s) ∧
      s.session = some 0 ∧ s.isLive 0 = true ∧ s.dispatchedBy 0 = 1 := by
  have hRun : (match (Player.empty.run (.mapping endedByNumber)).1 with
      | .played (.failed (.notMapping .int "get") s) =>
        decide (s.session = some 0 ∧ s.isLive 0 = true ∧ s.dispatchedBy 0 = 1)
      | _ => false) = true := by
    decide +kernel
  split at hRun
  · rename_i s hPlayed
    exact ⟨s, hPlayed, of_decide_eq_true hRun⟩
  · cases hRun

end VirtualLooper.Scenario
