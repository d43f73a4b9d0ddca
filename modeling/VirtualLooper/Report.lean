import VirtualLooper.Value.Equality
import VirtualLooper.Failure

/-! # Reports

A report gathers the findings of a run: checks, each passed or not, and what was delivered.  A check
can be added ready made, or as a mapping that gives some of its fields.
-/

namespace VirtualLooper

/-- The outcome of a single check at a point of virtual time. -/
structure Check where
  timestamp : Value
  /-- Counts as passed if this counts as true. -/
  passed : Value
  description : Value
  expected : Value
  actual : Value
  details : Value

/-- A delivered message, as reports show it. -/
structure Delivery where
  tag : Value
  time : Value
  thread : Value

/-- The findings of a run. -/
structure Report where
  name : Value
  checks : List Check
  dispatched : List Delivery
  finalTime : Value
  metadata : Value

/-- A check as it is handed to a report. -/
inductive Finding
  | check (c : Check)
  | fields (entries : List (Value × Value))

namespace Check

def fieldNames : List String :=
  ["timestamp", "passed", "description", "expected", "actual", "details"]

/-- The name of a field that no check has, if an entry gives one. -/
def strangeName? : Value × Value → Option Text
  | (.str n, _) => if fieldNames.contains n.asString then none else some n
  | _ => none

/-- A check with all its fields given by name.  The first two are required, and no others than the
known ones are taken. -/
def ofFields (entries : List (Value × Value)) : Except Failure Check :=
  if entries.any fun e => e.1.kind ≠ .str then .error .unnamedField
  else
    match entries.findSome? strangeName?, Value.field? entries "timestamp",
        Value.field? entries "passed" with
    | some n, _, _ => .error (.unknownField n)
    | none, none, none => .error (.missingFields ["timestamp", "passed"])
    | none, none, some _ => .error (.missingFields ["timestamp"])
    | none, some _, none => .error (.missingFields ["passed"])
    | none, some timestamp, some passed =>
      .ok {
        timestamp, passed
        description := (Value.field? entries "description").getD (.str "")
        expected := (Value.field? entries "expected").getD .none
        actual := (Value.field? entries "actual").getD .none
        details := (Value.field? entries "details").getD (.dict []) }

/-- A check from a mapping, at the given time.  A missing verdict means passed; details, a time of
its own and unknown fields are not taken over. -/
def ofMapping (timestamp : Value) (entries : List (Value × Value)) : Check where
  timestamp := timestamp
  passed := (Value.field? entries "passed").getD (.bool true)
  description := (Value.field? entries "description").getD (.str "")
  expected := (Value.field? entries "expected").getD .none
  actual := (Value.field? entries "actual").getD .none
  details := .dict []

def isPassed (c : Check) : Bool := c.passed.truthy

end Check

namespace Report

def named (name : Value) : Report := ⟨name, [], [], .int 0, .dict []⟩

def add (r : Report) (timestamp : Value) (f : Finding) : Report :=
  let c := match f with
    | .check c => c
    | .fields entries => .ofMapping timestamp entries
  { r with checks := r.checks ++ [c] }

def passed (r : Report) : Bool := r.checks.all Check.isPassed

def failures (r : Report) : List Check := r.checks.filter fun c => !c.isPassed

def tags (r : Report) : List Value := r.dispatched.map (·.tag)

end Report

end VirtualLooper
