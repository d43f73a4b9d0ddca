import Mathlib.Algebra.Ring.Int.Defs
import VirtualLooper.Proofs.Looper.Translation
import VirtualLooper.Proofs.Looper.Verdict
import VirtualLooper.Script.Basic

/-!
# Scripts at another time

A script is shifted in time by shifting the absolute due times in it, and those in the scripts of
the callbacks that it sends (`Op.later`, `Callback.later`).  What is entered in the journal is
shifted as well.  So the program of a script, shifted, is the program of the shifted script
(`program_script`), scripted handlers are shifted by shifting the scripts of their rules
(`world_later`), and what is known of loopers at another time holds of scripts (`same_later`).
-/

namespace VirtualLooper.Script

/-! ### Scripts -/

mutual

/-- An operation with its absolute due time so much later, if it has one, and a callback that does
everything so much later. -/
def Op.later (k : Int) : Op Callback → Op Callback
  | .sendAt h tag due => .sendAt h tag (due.later k)
  | .post h callback => .post h (callback.later k)
  | .postDelayed h callback delay => .postDelayed h (callback.later k) delay
  | .enqueue tag delay target callback => .enqueue tag delay target (laterIfAny k callback)
  | .enqueueAt tag due target callback =>
    .enqueueAt tag (due.later k) target (laterIfAny k callback)
  | .send h tag => .send h tag
  | .sendDelayed h tag delay => .sendDelayed h tag delay
  | .handlerHas h tag => .handlerHas h tag
  | .handlerRemove h tag => .handlerRemove h tag
  | .handle h tag => .handle h tag
  | .has tag target => .has tag target
  | .remove tag target => .remove tag target
  | .move amount => .move amount
  | .now => .now
  | .dispatchAll => .dispatchAll
  | .dispatchNext => .dispatchNext
  | .start => .start
  | .stop => .stop
  | .throw e => .throw e
  | .records h => .records h
  | .tags h => .tags h
  | .reset h => .reset h
  | .expect h name e => .expect h name e
  | .refused name e => .refused name e

def Step.later (k : Int) : Step Callback → Step Callback
  | ⟨op, caught⟩ => ⟨op.later k, caught⟩

def scriptLater (k : Int) : List (Step Callback) → List (Step Callback)
  | [] => []
  | step :: rest => step.later k :: scriptLater k rest

def laterIfAny (k : Int) : Option Callback → Option Callback
  | none => none
  | some callback => some (callback.later k)

def Callback.later (k : Int) : Callback → Callback
  | .mk id script => .mk id (scriptLater k script)

end

mutual

theorem Op.later_neg (k : Int) : ∀ op : Op Callback, (op.later k).later (-k) = op
  | .sendAt h tag due => by simp [Op.later, Value.later_neg]
  | .post h callback => by simp [Op.later, callback.later_neg]
  | .postDelayed h callback delay => by simp [Op.later, callback.later_neg]
  | .enqueue tag delay target callback => by simp [Op.later, laterIfAny_neg]
  | .enqueueAt tag due target callback => by simp [Op.later, Value.later_neg, laterIfAny_neg]
  | .send .. | .sendDelayed .. | .handlerHas .. | .handlerRemove .. | .handle .. | .has ..
  | .remove .. | .move _ | .now | .dispatchAll | .dispatchNext | .start | .stop | .throw _
  | .records _ | .tags _ | .reset _ | .expect .. | .refused .. => rfl

theorem Step.later_neg (k : Int) : ∀ step : Step Callback, (step.later k).later (-k) = step
  | ⟨op, caught⟩ => by simp [Step.later, op.later_neg]

theorem scriptLater_neg (k : Int) :
    ∀ steps : List (Step Callback), scriptLater (-k) (scriptLater k steps) = steps
  | [] => rfl
  | step :: rest => by simp [scriptLater, step.later_neg, scriptLater_neg]

theorem laterIfAny_neg (k : Int) :
    ∀ callback : Option Callback, laterIfAny (-k) (laterIfAny k callback) = callback
  | none => rfl
  | some callback => by simp [laterIfAny, callback.later_neg]

theorem Callback.later_neg (k : Int) :
    ∀ callback : Callback, (callback.later k).later (-k) = callback
  | .mk id script => by simp [Callback.later, scriptLater_neg]

end

theorem scriptLater_eq (k : Int) (steps : List (Step Callback)) :
    scriptLater k steps = steps.map (Step.later k) := by
  induction steps with
  | nil => rfl
  | cons step rest ih => rw [scriptLater, ih, List.map_cons]

/-! ### Journals -/

def Answer.later (k : Int) : Answer → Answer
  | .receipt r => .receipt { r with due := r.due + k }
  | .time t => .time (t + k)
  | .times now current => .times (now + k) (current + k)
  | .records rs => .records (rs.map fun r => { r with time := r.time + k })
  | a => a

def Event.later (k : Int) : Event → Event
  | .received h tag time thread => .received h tag (time + k) thread
  | .called id time thread => .called id (time + k) thread
  | .acted op result => .acted op (result.map (Answer.later k))

def Memory.later (k : Int) (m : Memory) : Memory :=
  { m with events := m.events.map (Event.later k) }

theorem Answer.later_neg (k : Int) (a : Answer) : (a.later k).later (-k) = a := by
  have hBack (t : Int) : t + k + -k = t := by omega
  cases a with
  | records rs => simp [later, Function.comp_def, hBack]
  | _ => simp only [later, hBack]

theorem Event.later_neg (k : Int) (e : Event) : (e.later k).later (-k) = e := by
  have hBack (t : Int) : t + k + -k = t := by omega
  cases e with
  | acted op result =>
    cases result with
    | error e => rfl
    | ok a => simp only [later, Except.map, Answer.later_neg]
  | _ => simp only [later, hBack]

theorem Memory.later_neg (k : Int) (m : Memory) : (m.later k).later (-k) = m := by
  have hEvents : Event.later (-k) ∘ Event.later k = id := funext (Event.later_neg k)
  simp only [later, List.map_map, hEvents, List.map_id]

/-- Whatever can be undone by the opposite amount. -/
def byAmount {α : Type} (later : Int → α → α) (h : ∀ k a, later (-k) (later k a) = a) (k : Int) :
    α ≃ α where
  toFun := later k
  invFun := later (-k)
  left_inv := h k
  right_inv a := by
    have hBack := h (-k) a
    rwa [Int.neg_neg] at hBack

def translation (k : Int) : Translation Memory Callback where
  amount := k
  memory := byAmount Memory.later Memory.later_neg k
  callback := byAmount Callback.later Callback.later_neg k

/-! ### Programs -/

variable (k : Int)

theorem program_attempt {α β : Type} (T : Translation Memory Callback) {f : α → α} {g : β → β}
    (p : Action α) {next next' : Except Failure α → Action β}
    (h : ∀ result, T.program g (next result) = next' (result.map f)) :
    T.program g (p.attempt next) = (T.program f p).attempt next' := by
  induction p with
  | done a => exact h (.ok a)
  | fail e => exact h (.error e)
  | load more ih => exact congrArg Program.load (funext fun memory => ih _)
  | store memory more ih => exact congrArg (Program.store _) ih
  | look more ih => exact congrArg Program.look (funext fun sight => ih _)
  | ask r more ih => exact congrArg (Program.ask _) (funext fun reply => ih _)

theorem program_andThen {α β : Type} (T : Translation Memory Callback) {f : α → α} {g : β → β}
    (p : Action α) {next next' : α → Action β}
    (h : ∀ a, T.program g (next a) = next' (f a)) :
    T.program g (p.andThen next) = (T.program f p).andThen next' := by
  refine program_attempt T p fun result => ?_
  cases result with
  | error e => rfl
  | ok a => exact h a

/-- What a program sees of the time before a shift is what the shifted program sees, shifted
back. -/
theorem now_symm_sight (s : Sight) : ((translation k).symm.sight s).now + k = s.now := by
  show s.now + -k + k = s.now
  omega

theorem ofReply_reply (r : Reply) :
    Answer.ofReply ((translation k).reply r) = (Answer.ofReply r).later k := by
  cases r <;> rfl

theorem program_request (r : Request Callback) :
    (translation k).program (Answer.later k) (Op.program.request r) =
      Op.program.request ((translation k).request r) := by
  refine congrArg (Program.ask _) (funext fun answered => ?_)
  cases answered with
  | error e => rfl
  | ok reply =>
    have hSame := ofReply_reply k ((translation k).symm.reply reply)
    rw [Translation.reply_symm] at hSame
    exact congrArg Program.done hSame.symm

theorem program_tagsOf (h : String) :
    (translation k).program id (Op.program.tagsOf h) = Op.program.tagsOf h := by
  refine congrArg (Program.ask _) (funext fun answered => ?_)
  cases answered with
  | error e => rfl
  | ok reply =>
    cases reply with
    | records rs =>
      have hTags : (rs.map (translation k).symm.record).map (·.tag) = rs.map (·.tag) := by
        rw [List.map_map]
        rfl
      exact congrArg Program.done hTags
    | _ => rfl

def checking (e : Expectation) (ts : List Value) : Action Answer :=
  match e.check ts with
  | .ok () => .done .nothing
  | .error e => .fail e

theorem program_op (op : Op Callback) :
    (translation k).program (Answer.later k) op.program = (op.later k).program := by
  have hCallback (callback : Option Callback) :
      callback.map (translation k).callback = laterIfAny k callback := by
    cases callback <;> rfl
  cases op with
  | tags h =>
    have hTags : (translation k).program (Answer.later k)
          ((Op.program.tagsOf h).andThen fun ts => .done (.tags ts)) =
        ((translation k).program id (Op.program.tagsOf h)).andThen fun ts => .done (.tags ts) :=
      program_andThen (translation k) _ fun _ => rfl
    rw [program_tagsOf] at hTags
    exact hTags
  | expect h name e =>
    have hChecks : (translation k).program (Answer.later k)
          ((Op.program.tagsOf h).andThen (checking e)) =
        ((translation k).program id (Op.program.tagsOf h)).andThen (checking e) := by
      refine program_andThen (translation k) _ fun ts => ?_
      simp only [checking, id_eq]
      cases e.check ts <;> rfl
    rw [program_tagsOf] at hChecks
    exact hChecks
  | now =>
    refine congrArg Program.look (funext fun sight => ?_)
    simp only [Translation.program, Answer.later, now_symm_sight]
  | enqueue tag delay target callback =>
    rw [Op.later, ← hCallback]
    exact program_request k _
  | enqueueAt tag due target callback =>
    rw [Op.later, ← hCallback]
    exact program_request k _
  | throw e => rfl
  | refused name e => rfl
  | _ => exact program_request k _

theorem program_enter (e : Event) (next : Action Unit) :
    (translation k).program id (.update (·.add e) next) =
      .update (·.add (e.later k)) ((translation k).program id next) := by
  refine congrArg Program.load (funext fun memory => ?_)
  have hMemory : (memory.later (-k)).later k = memory :=
    (byAmount Memory.later Memory.later_neg k).apply_symm_apply memory
  have hAdd (memory : Memory) : (memory.add e).later k = (memory.later k).add (e.later k) := by
    simp [Memory.add, Memory.later]
  have hStored := hAdd (memory.later (-k))
  rw [hMemory] at hStored
  exact congrArg (fun memory => Program.store memory ((translation k).program id next)) hStored

theorem program_script (steps : List (Step Callback)) :
    (translation k).program id (script steps) = script (steps.map (Step.later k)) := by
  induction steps with
  | nil => rfl
  | cons step rest ih =>
    obtain ⟨op, caught⟩ := step
    have hName : (op.later k).name = op.name := by
      cases op <;> rfl
    rw [List.map_cons, Step.later, script, script, ← program_op k op, hName]
    refine program_attempt (translation k) _ fun result => ?_
    rw [program_enter]
    refine congrArg (Program.update _) ?_
    cases result with
    | ok answer => exact ih
    | error e =>
      show (translation k).program id (if caught then script rest else .fail e) =
        if caught then script (rest.map (Step.later k)) else .fail e
      cases caught with
      | true => exact ih
      | false => rfl

theorem program_callback (c : Callback) :
    (translation k).program id c.program = (c.later k).program := by
  obtain ⟨name, steps⟩ := c
  refine congrArg Program.look (funext fun sight => ?_)
  rw [program_enter, program_script, Event.later, now_symm_sight, ← scriptLater_eq]
  rfl

/-! ### Handlers -/

def Rule.later (r : Rule) : Rule := { r with script := r.script.map (Step.later k) }

def Handler.later (h : Handler) : Handler := { h with rules := h.rules.map (·.map (Rule.later k)) }

theorem program_react (h : String) (tag : Value) (number : Nat) (rules : List Rule) :
    (translation k).program id (react h tag number rules) =
      react h tag number (rules.map (Rule.later k)) := by
  induction rules generalizing number with
  | nil => rfl
  | cons rule rest ih =>
    have hMatches : (rule.later k).matches tag = rule.matches tag := rfl
    rw [List.map_cons, react, react, hMatches]
    split
    · refine congrArg Program.load (funext fun memory => ?_)
      have hFired : ((memory.later (-k)).fire h number).later k = memory.fire h number := by
        have hMemory := (byAmount Memory.later Memory.later_neg k).apply_symm_apply memory
        exact congrArg (fun m => Memory.fire m h number) hMemory
      have hRest : (translation k).program id
            ((script rule.script).andThen fun _ => react h tag (number + 1) rest) =
          ((translation k).program id (script rule.script)).andThen
            fun _ => react h tag (number + 1) (rest.map (Rule.later k)) :=
        program_andThen (translation k) _ fun _ => ih (number + 1)
      rw [program_script] at hRest
      show (translation k).program id (if rule.mayFire (memory.timesFired h number) then _ else _) =
        if rule.mayFire (memory.timesFired h number) then _ else _
      split
      · show Program.store (((memory.later (-k)).fire h number).later k) _ = _
        rw [hFired, hRest]
        rfl
      · exact ih (number + 1)
    · exact ih (number + 1)

theorem program_receive (h : String) (tag : Value) (rules : List Rule) :
    (translation k).program id (receive h tag rules) =
      receive h tag (rules.map (Rule.later k)) := by
  refine congrArg Program.look (funext fun sight => ?_)
  rw [program_enter, program_react, Event.later, now_symm_sight]
  rfl

theorem handlerNamed?_later (handlers : List Handler) (name : String) :
    handlerNamed? (handlers.map (Handler.later k)) name =
      (handlerNamed? handlers name).map (Handler.later k) := by
  rw [handlerNamed?, handlerNamed?, ← List.map_reverse, List.find?_map]
  rfl

/-- Scripted handlers whose rules run shifted scripts are the shifted handlers. -/
theorem world_later (handlers : List Handler) :
    (translation k).world (world handlers) = world (handlers.map (Handler.later k)) := by
  refine (World.mk.injEq ..).mpr ⟨?_, ?_, ?_, rfl⟩
  · funext target tag
    cases target with
    | fallback h => exact program_receive k h tag []
    | handler h =>
      simp only [world, handlerNamed?_later]
      cases handlerNamed? handlers h with
      | none => rfl
      | some handler =>
        obtain ⟨name, recording, rules⟩ := handler
        cases rules with
        | none => rfl
        | some rules => exact program_receive k h tag rules
  · funext callback
    have hBack := (byAmount Callback.later Callback.later_neg k).apply_symm_apply callback
    exact (program_callback k _).trans (congrArg Callback.program hBack)
  · funext target
    cases target with
    | fallback h => rfl
    | handler h =>
      simp only [world, handlerNamed?_later]
      cases handlerNamed? handlers h <;> rfl

/-! ### Runs -/

/-- **Scripted handlers do the same at another time.**  A looper with scripted handlers starts at
some time, and another one so much later, or earlier; in all scripts of the other one, those of
callbacks and that of the main thread included, absolute due times are shifted by as much, and
nothing else is.  The log keeps to itself that a line cannot be written; if it is strict, every move
of the clock can be logged on both sides, or on neither.  Then the threads of the one can take their
steps in some order if, and only if, those of the other can, and the machines that they come to are
the same but for the shift: the same messages were taken in the same order and on the same threads,
and the same was answered to the same threads, but all times differ by the shift; so it is with all
that can be seen of the loopers, with what recording receivers have received, and with the
journal. -/
theorem same_later {settings : Settings} {time k : Int} (hStart : settings.startTime = .int time)
    (hTime : 0 ≤ time) (hShifted : 0 ≤ time + k) (fallback : Option Target)
    (handlers : List Handler) (steps : List (Step Callback)) (strict : Bool)
    {schedule : List Thread}
    (hLogs : strict = true → ∀ early late M, schedule = early ++ late →
      Machine.after ((world handlers).withLog strict) settings fallback .empty (script steps)
        early = some M → ∀ x ∈ M.exchanges, x.LogsAlike k) :
    let here := Machine.after ((world handlers).withLog strict) settings fallback .empty
      (script steps) schedule
    let there := Machine.after ((world (handlers.map (Handler.later k))).withLog strict)
      { settings with startTime := .int (time + k) } fallback .empty
      (script (steps.map (Step.later k))) schedule
    there = here.map (translation k).machine ∧
      ∀ M M', here = some M → there = some M' →
        M'.state.takings = M.state.takings.map (Taking.later k) ∧
        M'.exchanges = M.exchanges.map (translation k).exchange ∧
        (∀ thread, M'.state.sight thread = (translation k).sight (M.state.sight thread)) ∧
        M'.state.records = M.state.records.map (translation k).record ∧
        M'.state.memory.events = M.state.memory.events.map (Event.later k) := by
  intro here there
  have hSame : there = here.map (translation k).machine := by
    have hAfter := (translation k).after_machine ((world handlers).withLog strict) hStart hTime
      hShifted fallback .empty (script steps) hLogs
    have hSettings : (translation k).settings settings =
        { settings with startTime := .int (time + k) } := by
      rw [Translation.settings, hStart]
      rfl
    have hWorld : (translation k).world ((world handlers).withLog strict) =
        (world (handlers.map (Handler.later k))).withLog strict :=
      congrArg (·.withLog strict) (world_later k handlers)
    rw [hWorld, program_script, hSettings] at hAfter
    exact hAfter
  refine ⟨hSame, ?_⟩
  intro M M' hHere hThere
  rw [hHere, hThere, Option.map_some, Option.some.injEq] at hSame
  subst hSame
  exact ⟨(translation k).takings_state M.state, rfl, (translation k).sight_state M.state, rfl, rfl⟩

/-- On the first tag, the handler sends itself the second one, and delivers it at once. -/
def Handler.relay : Handler where
  name := "relay"
  recording := true
  rules := some [⟨.int 1, none,
    [⟨.sendAt "relay" (.int 2) (.int 2), false⟩, ⟨.dispatchNext, false⟩]⟩]

def relayed : List (Step Callback) :=
  [⟨.sendAt "relay" (.int 1) (.int 1), false⟩, ⟨.move (.int 3), false⟩, ⟨.dispatchAll, false⟩]

/-- Two messages are taken, one inside the delivery of the other; five units later, they are taken
five units later. -/
theorem same_five_later :
    ∃ M M' : Machine Memory Callback,
      Machine.after ((world [.relay]).withLog true) .standard none .empty (script relayed)
        (List.replicate 33 .main) = some M ∧
      Machine.after ((world ([Handler.relay].map (Handler.later 5))).withLog true)
        { Settings.standard with startTime := .int (0 + 5) } none .empty
        (script (relayed.map (Step.later 5))) (List.replicate 33 .main) = some M' ∧
      M.state.takings.map (fun d => (d.seq, d.due, d.time)) = [(0, 1, 3), (1, 2, 3)] ∧
      M'.state.takings.map (fun d => (d.seq, d.due, d.time)) = [(0, 6, 8), (1, 7, 8)] ∧
      M'.exchanges = M.exchanges.map (translation 5).exchange := by
  have hRun : (Machine.after ((world [.relay]).withLog true) .standard none .empty
      (script relayed) (List.replicate 33 .main)).map (fun M =>
        (M.state.takings.map fun d => (d.seq, d.due, d.time), M.exchanges.map (·.time))) =
      some ([(0, 1, 3), (1, 2, 3)], [0, 3, 3, 3, 3]) := by
    decide +kernel
  obtain ⟨M, hHere, hSeen⟩ := Option.map_eq_some_iff.1 hRun
  obtain ⟨hTakings, hTimes⟩ := Prod.mk.inj hSeen
  have hStart : Settings.standard.startTime = .int 0 := rfl
  have hLogs : true = true → ∀ early late M₀, List.replicate 33 Thread.main = early ++ late →
      Machine.after ((world [.relay]).withLog true) .standard none .empty (script relayed) early =
        some M₀ → ∀ x ∈ M₀.exchanges, x.LogsAlike 5 := by
    -- all requests were answered at times that can be written
    intro _ early late M₀ hSplit hEarly x hx
    obtain ⟨s, hMake⟩ : ∃ s : State Memory Callback, State.make .standard none .empty = .ok s :=
      ⟨_, rfl⟩
    have hShort : ∀ time ∈ [(0 : Int), 3, 3, 3, 3],
        Value.isShort time = true ∧ Value.isShort (time + 5) = true := by
      decide +kernel
    rw [Machine.after, hMake] at hEarly hHere
    have hBegun : (Machine.start s (script relayed)).follow ((world [.relay]).withLog true) early =
        some M₀ := hEarly
    have hWhole : (Machine.start s (script relayed)).follow ((world [.relay]).withLog true)
        (List.replicate 33 .main) = some M := hHere
    rw [hSplit, Machine.follow_append, hBegun] at hWhole
    have hLast := (Machine.exchanges_follow hWhole).subset hx
    obtain ⟨hTime, hShifted⟩ := hShort x.time (hTimes ▸ List.mem_map_of_mem hLast)
    exact Exchange.logsAlike_of_short hTime hShifted
  obtain ⟨hThere, hAlike⟩ :=
    same_later hStart (by decide) (by decide) none [.relay] relayed true hLogs
  rw [hHere, Option.map_some] at hThere
  obtain ⟨hLater, hExchanges, -⟩ := hAlike M _ hHere hThere
  refine ⟨M, _, hHere, hThere, hTakings, ?_, hExchanges⟩
  have hShown := congrArg (List.map fun d : Nat × Int × Int => (d.1, d.2.1 + 5, d.2.2 + 5))
    hTakings
  rw [List.map_map] at hShown
  rw [hLater, List.map_map]
  exact hShown

/-- With a strict log, a move to the first time that has too many digits to be written fails for
that, although the clock moves; from a start at zero, the same move does not. -/
theorem unlogged_move :
    ∃ M M' : Machine Memory Callback,
      Machine.after (world []) .standard none .empty (script [⟨.move (.int 1), true⟩]) [.main] =
        some M ∧
      Machine.after (world ([].map (Handler.later (10 ^ 4300 - 1))))
        { Settings.standard with startTime := .int (0 + (10 ^ 4300 - 1)) } none .empty
        (script ([⟨.move (.int 1), true⟩].map (Step.later (10 ^ 4300 - 1)))) [.main] = some M' ∧
      M.exchanges.map (·.result.isOk) = [true] ∧ M'.exchanges.map (·.result.isOk) = [false] := by
  have hHere : (Machine.after (world []) .standard none .empty
      (script [⟨.move (.int 1), true⟩]) [.main]).map
        (fun M => M.exchanges.map (·.result.isOk)) = some [true] := by
    decide +kernel
  have hThere : (Machine.after (world ([].map (Handler.later (10 ^ 4300 - 1))))
      { Settings.standard with startTime := .int (0 + (10 ^ 4300 - 1)) } none .empty
      (script ([⟨.move (.int 1), true⟩].map (Step.later (10 ^ 4300 - 1)))) [.main]).map
        (fun M => M.exchanges.map (·.result.isOk)) = some [false] := by
    decide +kernel
  obtain ⟨M, hM, hResult⟩ := Option.map_eq_some_iff.1 hHere
  obtain ⟨M', hM', hResult'⟩ := Option.map_eq_some_iff.1 hThere
  exact ⟨M, M', hM, hM', hResult, hResult'⟩

end VirtualLooper.Script
