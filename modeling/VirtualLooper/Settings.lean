import VirtualLooper.Value.Equality
import VirtualLooper.Failure

/-! # Settings of a looper

Settings are kept as they were given: whether a start time is an integer, for example, is checked
only when a looper is made from them.  They come from a mapping whose keys all have to be known.
-/

namespace VirtualLooper

structure Settings where
  startTime : Value
  /-- The longest sleep of an idle worker, in seconds. -/
  idleWait : Value
  /-- Does stopping a session that delivered nothing count as misuse? -/
  requireDispatch : Value
  threadName : Value

namespace Settings

def standard : Settings where
  startTime := .int 0
  idleWait := .float (.ofDecimal false 1 (-2))
  requireDispatch := .bool true
  threadName := .str "mock-looper-auto-dispatch"

def names : List String :=
  ["start_time", "idle_wait_s", "require_dispatch_on_stop", "thread_name"]

def isStandard (s : Settings) : Bool :=
  Value.same s.startTime standard.startTime && Value.same s.idleWait standard.idleWait &&
    Value.same s.requireDispatch standard.requireDispatch &&
    Value.same s.threadName standard.threadName

/-- The elements of a collection of names that name no setting, in ascending order. -/
def unknownNames (given : List Value) : Except Failure (List Value) :=
  let unknown := given.filter fun v => !names.any fun n => Value.same v (.str n)
  match Value.sorted? (Value.distinct unknown) with
  | .ok sorted => .ok sorted
  | .error (left, right) => .error (.cannotCompare "<" left right)

/-- The settings that a mapping gives; what it leaves out is standard. -/
def ofFields (entries : List (Value × Value)) : Settings where
  startTime := (Value.field? entries "start_time").getD standard.startTime
  idleWait := (Value.field? entries "idle_wait_s").getD standard.idleWait
  requireDispatch := (Value.field? entries "require_dispatch_on_stop").getD standard.requireDispatch
  threadName := (Value.field? entries "thread_name").getD standard.threadName

/-- Reads settings from a value.  Anything that counts as false stands for the standard settings.
The names are checked first, and only then that the value is a mapping at all. -/
def ofValue (v : Value) : Except Failure Settings := do
  if !v.truthy then return standard
  let some given := v.elements? | throw (.notIterable v.kind)
  if let some kind := Value.firstUnhashable? given then throw (.unhashable kind)
  let unknown ← unknownNames given
  if !unknown.isEmpty then throw (Failure.unknownSettings unknown).orUnwritable
  match v.entries? with
  | some entries => return ofFields entries
  | none => throw (.settingsNotMapping v.kind)

end Settings

end VirtualLooper
