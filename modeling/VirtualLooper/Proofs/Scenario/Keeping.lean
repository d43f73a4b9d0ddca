import Mathlib.Data.List.Forall2
import VirtualLooper.Scenario.Player

/-!
# Runs of one player do not concern one another

A run replaces what its player keeps: the scenario, and then the looper, which has recorded what was
delivered.  It makes its own looper before anything is played, so nothing of the run before shows in
it but the scenario, and that scenario is the last one that was stored: a mapping is always stored,
and a document if its content is a mapping, or counts as false (`Source.isStored`).  Whether the run
fails that has stored it does not matter, and a document that is not stored leaves the scenario in
place that was there before.

So a player that is to play a scenario again does what a new player does with the source that was
stored last (`Source.asked`), and whatever else it is given it plays as a new player would, with the
same surroundings.  Of the surroundings, how the workers without a name are numbered shows in nothing
but their names (`SameButNumbers`).  `runs_of_one` says this of all runs that are made with one
player, one after the other.
-/

namespace VirtualLooper.Scenario

namespace Source

def isStored : Source → Bool
  | kept | nowhere _ => false
  | mapping _ => true
  | document (.ok content) => !content.truthy || content.entries?.isSome
  | document (.error _) => false

/-- The source that was stored last, after another source than this. -/
def after (stored source : Source) : Source := if source.isStored then source else stored

def asked (stored : Source) : Source → Source
  | kept => stored
  | source => source

/-- The sources of all scenarios that are asked for, one after the other, each with the surroundings
of its run. -/
def allAsked : (stored : Source) → List (Surroundings × Source) → List (Surroundings × Source)
  | _, [] => []
  | stored, (e, source) :: rest =>
    (e, stored.asked source) :: allAsked (stored.after source) rest

end Source

/-! ### Numbers of workers -/

/-- Two performances are the same, but for the numbers in the names of workers.  These show only
where workers have no name of their own. -/
inductive SameButNumbers : Performance → Performance → Prop
  | same (performance : Performance) : SameButNumbers performance performance
  | renumbered {report report' : Report} {s : Looper}
      (hRest : report' = { report with dispatched := report'.dispatched })
      (hDispatched : List.Forall₂ (fun d d' : Delivery => d.tag = d'.tag ∧ d.time = d'.time ∧
        (s.settings.threadName.truthy = true → d.thread = d'.thread))
        report.dispatched report'.dispatched) :
      SameButNumbers (.played (.ok report s)) (.played (.ok report' s))

section Numbers

variable {e : Surroundings} {number : Nat → Nat}

theorem runSteps_with_number (index : Nat) (values : List Value) (s : Looper) :
    runSteps { e with number } index values s = runSteps e index values s := by
  induction values generalizing index s with
  | nil => rfl
  | cons v rest ih =>
    rw [runSteps, runSteps]
    cases Step.ofValue index v with
    | error f => rfl
    | ok step => simp only [ih]

theorem playOn_with_number (fields : List (Value × Value)) (s : Looper) :
    SameButNumbers (.played (playOn e fields s)) (.played (playOn { e with number } fields s)) := by
  rw [playOn, playOn]
  cases stepsOf fields with
  | error f => exact .same _
  | ok steps =>
    have hFinish : finish { e with number } = finish e := rfl
    simp only [runSteps_with_number, hFinish]
    cases runSteps e 0 steps s <;> simp only [Outcome.bind]
    case ok checks t =>
      cases finish e t <;> simp only
      case ok _ u =>
        refine .renumbered rfl ?_
        rw [List.forall₂_map_left_iff, List.forall₂_map_right_iff]
        refine List.forall₂_same.2 fun r _ => ⟨rfl, rfl, fun hName => ?_⟩
        exact congrArg Value.str (Settings.nameAmong_congr hName e.number number r.thread)
      all_goals exact .same _
    all_goals exact .same _

end Numbers

namespace Player

/-- A new player, which may be given a document.  A mapping is not the place of one. -/
def make : Source → Except Failure Player
  | .mapping entries => .error (placeFailure (.dict entries))
  | source => empty.take source

def runs (p : Player) : List (Surroundings × Source) → List Performance × Player
  | [] => ([], p)
  | (e, source) :: rest =>
    let (performance, p) := p.runIn e source
    let (performances, p) := p.runs rest
    (performance :: performances, p)

/-- The scenario that the player keeps is the one of the source. -/
def Keeps (p : Player) (stored : Source) : Prop :=
  ∃ q, empty.take stored = .ok q ∧ p.scenario = q.scenario

variable {p p' q : Player} {stored source : Source}

/-- What is played does not depend on the looper of the run before. -/
theorem playKept_congr (h : p.scenario = p'.scenario) (e : Surroundings) :
    (p.playKept e).1 = (p'.playKept e).1 ∧ (p.playKept e).2.scenario = p.scenario := by
  simp only [playKept, equip, ← h]
  cases hFields : p.scenario.entries? with
  | none => exact ⟨rfl, rfl⟩
  | some fields =>
    simp only
    cases looperFor fields with
    | error f => exact ⟨rfl, rfl⟩
    | ok s =>
      refine ⟨?_, rfl⟩
      simp only [Except.map, play, h]

/-- What is read depends neither on what was kept nor on the looper of the run before. -/
theorem take_of_ne_kept (p p' : Player) (h : source ≠ .kept) :
    (∃ f, p.take source = .error f ∧ p'.take source = .error f) ∨
      ∃ q q', p.take source = .ok q ∧ p'.take source = .ok q' ∧ q.scenario = q'.scenario := by
  cases source with
  | kept => exact absurd rfl h
  | mapping entries => exact Or.inr ⟨_, _, rfl, rfl, rfl⟩
  | nowhere place => exact Or.inl ⟨_, rfl, rfl⟩
  | document content =>
    cases content with
    | error f => exact Or.inl ⟨f, rfl, rfl⟩
    | ok content =>
      simp only [take, bind, Except.bind]
      cases ofContent content with
      | error f => exact Or.inl ⟨f, rfl, rfl⟩
      | ok scenario => exact Or.inr ⟨_, _, rfl, rfl, rfl⟩

theorem isStored_iff (h : source ≠ .kept) :
    source.isStored = true ↔ ∃ p', empty.take source = .ok p' := by
  cases source with
  | kept => exact absurd rfl h
  | mapping entries => exact iff_of_true rfl ⟨_, rfl⟩
  | nowhere place => exact iff_of_false (by simp [Source.isStored]) (by simp [take])
  | document content =>
    cases content with
    | error e => exact iff_of_false (by simp [Source.isStored]) (by simp [take, bind, Except.bind])
    | ok content =>
      simp only [Source.isStored, take, bind, Except.bind, ofContent]
      cases content.truthy with
      | false => simp [pure, Except.pure]
      | true => cases content.entries? <;> simp [pure, Except.pure]

/-- **A run does what a new player does** with the source that is asked for, and leaves the scenario
that was stored last. -/
theorem runIn_of_keeps (h : p.Keeps stored) (e : Surroundings) (source : Source) :
    (p.runIn e source).1 = (empty.runIn e (stored.asked source)).1 ∧
      (p.runIn e source).2.Keeps (stored.after source) := by
  obtain ⟨q, hStored, hSame⟩ := h
  by_cases hKept : source = .kept
  · subst hKept
    obtain ⟨hPerformance, hScenario⟩ := playKept_congr hSame e
    rw [Source.asked, runIn, runIn, hStored]
    exact ⟨hPerformance, q, hStored, hScenario.trans hSame⟩
  · have hAsked : stored.asked source = source := by
      cases source with
      | kept => exact absurd rfl hKept
      | _ => rfl
    rw [hAsked, runIn, runIn, Source.after]
    rcases take_of_ne_kept p empty hKept with ⟨f, hTake, hNew⟩ | ⟨p', q', hTake, hNew, hScenario⟩
    · have hNot : ¬ source.isStored = true := by
        rw [isStored_iff hKept, hNew]
        simp
      rw [if_neg hNot, hTake, hNew]
      exact ⟨rfl, q, hStored, hSame⟩
    · obtain ⟨hPerformance, hLeft⟩ := playKept_congr hScenario e
      rw [if_pos ((isStored_iff hKept).2 ⟨q', hNew⟩), hTake, hNew]
      exact ⟨hPerformance, q', hNew, hLeft.trans hScenario⟩

theorem runs_of_keeps (h : p.Keeps stored) (sources : List (Surroundings × Source)) :
    (p.runs sources).1 =
        (stored.allAsked sources).map (fun run => (empty.runIn run.1 run.2).1) ∧
      (p.runs sources).2.Keeps ((sources.map (·.2)).foldl Source.after stored) := by
  induction sources generalizing p stored with
  | nil => exact ⟨rfl, h⟩
  | cons head rest ih =>
    obtain ⟨e, source⟩ := head
    obtain ⟨hFirst, hKept⟩ := runIn_of_keeps h e source
    obtain ⟨hRest, hLast⟩ := ih hKept
    refine ⟨?_, hLast⟩
    rw [Source.allAsked, List.map_cons, ← hFirst, ← hRest]
    rfl

theorem runIn_with_number (e : Surroundings) (number : Nat → Nat) (source : Source) :
    SameButNumbers (empty.runIn e source).1 (empty.runIn { e with number } source).1 := by
  rw [runIn, runIn]
  cases empty.take source with
  | error f => exact .same _
  | ok p =>
    simp only [playKept]
    cases p.equip with
    | error f => exact .same _
    | ok q =>
      simp only [play]
      cases q.looper with
      | none => exact .same _
      | some s => exact playOn_with_number _ s

/-- **Each of the runs that are made with one player comes to what a new player comes to** that is
given the scenario, or, if the run is given none, the scenario that was stored last; that is the
empty one if none was.  The numbers that nameless workers have got by then make no difference but to
their names.  After the runs, the scenario is kept that was stored last. -/
theorem runs_of_one {first : Source} (hMake : make first = .ok p)
    (sources : List (Surroundings × Source)) :
    (p.runs sources).1 = (((Source.mapping []).after first).allAsked sources).map
      (fun run => (empty.runIn run.1 run.2).1) ∧
    (∀ e number source,
      SameButNumbers (empty.runIn e source).1 (empty.runIn { e with number } source).1) ∧
    (p.runs sources).2.Keeps
      ((sources.map (·.2)).foldl Source.after ((Source.mapping []).after first)) := by
  have hTake : empty.take first = .ok p := by
    cases first with
    | mapping entries => cases hMake
    | _ => exact hMake
  have hKeeps : p.Keeps ((Source.mapping []).after first) := by
    by_cases hKept : first = .kept
    · subst hKept
      obtain rfl := Except.ok.inj hTake
      exact ⟨empty, rfl, rfl⟩
    · rw [Source.after, if_pos ((isStored_iff hKept).2 ⟨p, hTake⟩)]
      exact ⟨p, hTake, rfl⟩
  obtain ⟨hRuns, hLast⟩ := runs_of_keeps hKeeps sources
  exact ⟨hRuns, runIn_with_number, hLast⟩

def refusedMapping : List (Value × Value) := [(.str "looper", .dict [(.str "speed", .int 1)])]

/-- A player that was given a document plays it, and then what it is given: a mapping that is refused
and yet stored, a document that is not found and one that holds a list, neither of which is stored,
and an empty one, which is. -/
theorem runs_of_refused :
    ∃ p e, make (.document (.ok (.dict [(.str "name", .str "first")]))) = .ok p ∧
      (p.run (.mapping refusedMapping)).1 = .refused e ∧
      (p.runs ([.kept, .mapping refusedMapping, .kept, .nowhere (.str "missing"), .kept,
        .document (.ok (.list [.int 1])), .kept, .document (.ok .none), .kept].map
          (Surroundings.patient, ·))).1 =
      [.document (.ok (.dict [(.str "name", .str "first")])), .mapping refusedMapping,
        .mapping refusedMapping, .nowhere (.str "missing"), .mapping refusedMapping,
        .document (.ok (.list [.int 1])), .mapping refusedMapping, .document (.ok .none),
        .document (.ok .none)].map fun source => (empty.run source).1 := by
  have hName : (Value.field? [(.str "name", .str "first")] "scenario").isNone = true := by
    decide +kernel
  have hMake : make (.document (.ok (.dict [(.str "name", .str "first")]))) =
      .ok ⟨.dict [(.str "name", .str "first")], none⟩ := by
    show Except.ok (Player.mk (inside _ _) none) = _
    rw [inside, Option.isNone_iff_eq_none.1 hName, Option.getD_none]
  have hRefused : (match (empty.run (.mapping refusedMapping)).1 with
      | .refused _ => true
      | .played _ => false) = true := by
    decide +kernel
  cases hRun : (empty.run (.mapping refusedMapping)).1 with
  | played o => simp [hRun] at hRefused
  | refused e =>
    obtain ⟨hRuns, -, -⟩ := runs_of_one hMake (List.map (Surroundings.patient, ·)
      [.kept, .mapping refusedMapping, .kept, .nowhere (.str "missing"), .kept,
        .document (.ok (.list [.int 1])), .kept, .document (.ok .none), .kept])
    exact ⟨_, e, hMake, hRun, hRuns⟩

end Player

end VirtualLooper.Scenario
