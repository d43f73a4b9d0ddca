import VirtualLooper.Duration
import VirtualLooper.Looper.Run
import VirtualLooper.Report

/-! # Steps of a scenario

A scenario is a list of steps against a looper with one recording receiver that does nothing else.
A step names an action, may expect the action to be a misuse, and has further fields that are the
arguments of the action.  What a step contributes to the report depends on how its action ended:
`contribution` says which checks it adds.

Steps are made on the main thread, which does not wait for the worker of a session but where it stops
it.  So the worker may have come to any point of its work when the main thread looks: it may have
taken a message that it has not yet recorded.
-/

namespace VirtualLooper.Scenario

/-- What a worker has in hand: a message that it has taken, or what it is about to record of it. -/
inductive Hand
  | empty
  | message (m : Message Empty)
  | record (r : Record)

/-- The looper of a scenario, which has no callbacks; with what its worker has in hand. -/
abbrev Looper := State Hand Empty

def recorder : Target := .handler "recorder"

/-- A world in which messages are recorded and nothing happens. -/
def world (strict : Bool) : World Hand Empty where
  receive _ _ := .done ()
  invoke c := nomatch c
  records _ := true
  strictLog := strict

/-- A bound that no run in this world reaches: every message is taken at most once, every worker has
one turn, and receivers make no requests. -/
def bound (s : Looper) : Nat := s.queue.size + s.workers.length + 3

/-! ### The worker of a session -/

/-- The next that a live worker does, as far as nobody can come between: to take a message, to look
at the clock as the receiver is called, to add the record.  If nothing is due it waits, if it can. -/
def workOn (session : Nat) (s : Looper) : Looper :=
  match s.memory with
  | .message m =>
    { s.recordHistory (.called m m.call? (.worker session)) with
      memory := .record ⟨recorder, m.tag, s.clock.now, .worker session⟩ }
  | .record r => { s with records := s.records ++ [r], memory := .empty }
  | .empty =>
    match s.take? (.worker session) with
    | some (m, s) => { s.countFor session with memory := .message m }
    | none =>
      match s.settings.checkWait with
      | .error e => s.killWorker session e
      | .ok () => s

/-- The next that the worker of the session does, if one is going on and its worker is live. -/
def work (s : Looper) : Looper :=
  match s.session with
  | some session => if s.isLive session then workOn session s else s
  | none => s

def workFor : Nat → Looper → Looper
  | 0, s => s
  | n + 1, s => workFor n (work s)

def Hand.size : Hand → Nat
  | empty => 0
  | message _ => 2
  | record _ => 1

def land (s : Looper) : Looper := workFor s.memory.size s

inductive Action
  | send | remove | moveTime | dispatchAll | dispatchNext | start | stop
  | expectDispatched | expectPending
  deriving DecidableEq, Repr

namespace Action

def name : Action → String
  | send => "send"
  | remove => "remove"
  | moveTime => "move_time"
  | dispatchAll => "dispatch_all"
  | dispatchNext => "dispatch_next"
  | start => "start_auto_dispatch"
  | stop => "stop_auto_dispatch"
  | expectDispatched => "expect_dispatched"
  | expectPending => "expect_pending"

def all : List Action :=
  [send, remove, moveTime, dispatchAll, dispatchNext, start, stop, expectDispatched, expectPending]

def ofValue? (v : Value) : Option Action :=
  all.find? fun a => Value.equal v (.str a.name)

end Action

/-- A step: its number, what it names as its action, whether it expects a misuse, and its fields. -/
structure Step where
  index : Nat
  action : Value
  expectsMisuse : Bool
  fields : List (Value × Value)

def Step.ofValue (index : Nat) (v : Value) : Except Failure Step :=
  match v.entries? with
  | some fields =>
    .ok {
      index
      action := (Value.field? fields "action").getD (.str "")
      expectsMisuse := ((Value.field? fields "expect_error").map (·.truthy)).getD false
      fields }
  | none => .error (.notMapping v.kind "get")

def Step.field (step : Step) (name : String) (absent : Value) : Value :=
  (Value.field? step.fields name).getD absent

def checkNow (s : Looper) (passed : Bool) (description : Text) (expected actual : Value) :
    Check :=
  ⟨.int s.clock.now, .bool passed, .str description, expected, actual, .dict []⟩

def countCheck (step : Step) (s : Looper) (count : Nat) : List Check :=
  match Value.field? step.fields "expect" with
  | none => []
  | some expected =>
    [checkNow s (Value.equal (.int count) expected) (step.action.shown ++ " count")
      expected (.int count)]

section Actions

variable (strict : Bool)

/-- Makes a request on the main thread.  A stop waits for the worker, which first delivers what it
has in hand. -/
def ask (r : Request Empty) (s : Looper) : Outcome Looper Reply :=
  perform (world strict) (bound s) .main r
    (match r with
      | .stop => land s
      | _ => s)

def askCount (step : Step) (r : Request Empty) (s : Looper) : Outcome Looper (List Check) :=
  (ask strict r s).bind fun reply s =>
    match reply with
    | .count n => .ok (countCheck step s n) s
    | .flag b => .ok (countCheck step s (if b then 1 else 0)) s
    | _ => .ok [] s

def askQuietly (r : Request Empty) (s : Looper) : Outcome Looper (List Check) :=
  (ask strict r s).map fun _ => []

def withDuration (v : Value) (s : Looper) (k : Int → Outcome Looper (List Check)) :
    Outcome Looper (List Check) :=
  match Duration.parse v with
  | .ok n => k n
  | .error e => .failed e s

/-- Performs a send, for a due time if the step has one and else for a delay. -/
def send (step : Step) (s : Looper) : Outcome Looper (List Check) :=
  let tag := step.field "tag" .none
  match Value.field? step.fields "at" with
  | some due => withDuration due s fun n =>
      askQuietly strict (.enqueueAt tag (.int n) (some recorder) none) s
  | none => withDuration (step.field "delay" (.int 0)) s fun n =>
      askQuietly strict (.enqueue tag (.int n) (some recorder) none) s

/-- Drops the messages with the tag of a step.  A tag that contains itself cannot be compared with
every other one. -/
def remove (step : Step) (s : Looper) : Outcome Looper (List Check) :=
  let tag := step.field "tag" .none
  if s.queue.pending.any fun m => Value.endless m.tag tag then .failed .endlessComparison s
  else askQuietly strict (.remove tag (some recorder)) s

def start (s : Looper) : Outcome Looper (List Check) :=
  if s.running || s.settings.threadName.isWritable then askQuietly strict .start s
  else .failed .tooLongToWrite s

def deliveredTags (s : Looper) : List Value := (s.recordsOf recorder).map (·.tag)

def expectDispatched (step : Step) (s : Looper) : Outcome Looper (List Check) :=
  let listed := step.field "tags" (.list [])
  match listed.elements? with
  | none => .failed (.notIterable listed.kind) s
  | some expected =>
    let delivered := deliveredTags s
    if Value.areEndless delivered expected then .failed .endlessComparison s
    else
      .ok [checkNow s (Value.sameElements delivered expected) "expect_dispatched" (.list expected)
        (.list delivered)] s

def expectPending (step : Step) (s : Looper) : Outcome Looper (List Check) :=
  let expected := step.field "count" (.int 0)
  .ok [checkNow s (Value.equal (.int s.queue.size) expected) "expect_pending" expected
    (.int s.queue.size)] s

/-- Performs the action of a step; the result is the checks that the action itself makes. -/
def act (step : Step) (s : Looper) : Outcome Looper (List Check) :=
  match Action.ofValue? step.action with
  | some .send => send strict step s
  | some .remove => remove strict step s
  | some .moveTime => withDuration (step.field "by" (.int 0)) s fun n =>
      askQuietly strict (.advance (.int n)) s
  | some .dispatchAll => askCount strict step .dispatchAll s
  | some .dispatchNext => askCount strict step .dispatchNext s
  | some .start => start strict s
  | some .stop => askCount strict step .stop s
  | some .expectDispatched => expectDispatched step s
  | some .expectPending => expectPending step s
  | none =>
    match s.write strict .main (.unknownAction step.action) with
    | .ok s => .ok [] s
    | .error e => .failed e s

def contribution (step : Step) (s : Looper) : Except Failure (List Check) → List Check
  | .ok checks =>
    checks ++
      if step.expectsMisuse then
        [checkNow s false
          ("step " ++ toString step.index ++ ": " ++ step.action.shown ++ " did not raise")
          (.str "UsageError") .none]
      else []
  | .error e =>
    if e.isMisuse then
      [checkNow s step.expectsMisuse
        ("step " ++ toString step.index ++ ": " ++ step.action.shown ++ " raised " ++
          e.errorClass.name) .none (.str e.message)]
    else [checkNow s false ("Exception in " ++ step.action.shown) .none (.str e.quoted)]

/-- Does what a step adds to the report show its action, besides the checks of the action itself? -/
def showsAction (step : Step) : Except Failure (List Check) → Bool
  | .ok _ => step.expectsMisuse
  | .error _ => true

def noteEnd (step : Step) (s : Looper) : Except Failure (List Check) → Except Failure Looper
  | .ok _ => .ok s
  | .error e =>
    if e.isMisuse then
      if step.expectsMisuse then .ok s
      else s.write strict .main (.misuseInStep step.index step.action)
    else s.write strict .main (.errorInStep step.index step.action)

/-- Runs a step: its checks.  What cannot be written in the log or in the report ends the run. -/
def runStep (step : Step) (s : Looper) : Outcome Looper (List Check) :=
  (act strict step s).attempt fun result s =>
    match noteEnd strict step s result with
    | .error e => .failed e s
    | .ok s =>
      if showsAction step result && !step.action.isWritable then .failed .tooLongToWrite s
      else .ok (contribution step s result) s

end Actions

end VirtualLooper.Scenario
