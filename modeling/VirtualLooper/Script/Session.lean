import VirtualLooper.Script.Basic

/-! # Sessions with a scripted looper

A session runs stages on the main thread: single operations, bursts of operations without a pause,
and blocks of auto-dispatch.  Between stages, and between the operations of a block, all workers
come to rest.  The transcript holds for each stage its result, the events since the stage before,
and what can be seen of the looper then.
-/

namespace VirtualLooper.Script

abbrev Looper := State Memory Callback

inductive Stage
  | step (s : Step Callback)
  | burst (ops : List (Step Callback))
  | auto (body : List (Step Callback))

/-- What an operation of a block, or a stage that is one operation, came to. -/
structure Entry where
  result : Except Failure Answer
  events : List Event
  sight : Sight

inductive StageResult
  | step (result : Except Failure Answer)
  | burst (results : List (Except Failure Answer))
  /-- A block: what left it, its operations, and the worker that it began with, if it began. -/
  | auto (result : Except Failure Unit) (body : List Entry) (worker : Option Worker)

structure StageEntry where
  result : StageResult
  events : List Event
  sight : Sight

structure Transcript where
  stages : List StageEntry
  /-- The stop at the end, where auto-dispatch was still on. -/
  finalStop : Option Entry
  mainLog : List Text
  workerLog : List Text

variable (w : World Memory Callback) (bound : Nat)

/-- Runs an operation on the main thread; a failure is part of the result. -/
def runOp (op : Op Callback) (s : Looper) : Outcome Looper (Except Failure Answer) :=
  (op.program.run (perform w bound .main) .main s).attempt fun result s => .ok result s

/-- Lets the workers come to rest, and takes the events out of the journal. -/
def settled (s : Looper) : Outcome Looper (List Event × Sight) :=
  (settle w bound s).bind fun _ s =>
    .ok (s.memory.events, s.sight .main) { s with memory := { s.memory with events := [] } }

def runEntry (op : Op Callback) (s : Looper) : Outcome Looper Entry :=
  (runOp w bound op s).bind fun result s =>
    (settled w bound s).bind fun (events, sight) s => .ok ⟨result, events, sight⟩ s

def runBurst : List (Step Callback) → Looper → Outcome Looper (List (Except Failure Answer))
  | [], s => .ok [] s
  | step :: rest, s =>
    (runOp w bound step.op s).bind fun result s => (runBurst rest s).map (result :: ·)

/-- Runs the operations of a block until one fails uncaught: the entries, and that failure. -/
def runBody : List (Step Callback) → Looper → Outcome Looper (List Entry × Except Failure Unit)
  | [], s => .ok ([], .ok ()) s
  | step :: rest, s =>
    (runEntry w bound step.op s).bind fun entry s =>
      match entry.result, step.caught with
      | .error e, false => .ok ([entry], .error e) s
      | _, _ => (runBody rest s).map fun (entries, result) => (entry :: entries, result)

def runAuto (body : List (Step Callback)) (s : Looper) : Outcome Looper StageResult :=
  (autoBlock w bound .main (fun s => (settle w bound s).bind fun _ s => runBody w bound body s)
    s).bind fun (left, inside) s =>
      match inside with
      | some (entries, session) => .ok (.auto left entries (s.worker? session)) s
      | none => .ok (.auto left [] none) s

def runStage : Stage → Looper → Outcome Looper StageResult
  | .step step, s => (runOp w bound step.op s).map .step
  | .burst ops, s => (runBurst w bound ops s).map .burst
  | .auto body, s => runAuto w bound body s

def runStageEntry (stage : Stage) (s : Looper) : Outcome Looper StageEntry :=
  (runStage w bound stage s).bind fun result s =>
    (settled w bound s).bind fun (events, sight) s => .ok ⟨result, events, sight⟩ s

def runStages : List Stage → Looper → Outcome Looper (List StageEntry)
  | [], s => .ok [] s
  | stage :: rest, s =>
    (runStageEntry w bound stage s).bind fun entry s => (runStages rest s).map (entry :: ·)

def runSession (stages : List Stage) (s : Looper) : Outcome Looper Transcript :=
  (runStages w bound stages s).bind fun entries s =>
    (if s.running then (runEntry w bound .stop s).map some else .ok none s).bind fun last s =>
      .ok ⟨entries, last, s.linesOf true, s.linesOf false⟩ s

end VirtualLooper.Script
