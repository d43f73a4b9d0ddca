import VirtualLooper.Scenario.Basic
import VirtualLooper.Scenario.Place

/-! # Playing scenarios

A player is given scenarios, as mappings or as documents, and plays each against a fresh looper.  It
keeps the last scenario that it was given, so that one can be played again, and the looper that was
made last.  A document that cannot be read leaves the kept scenario in place, and settings of which
no looper can be made leave the looper of the run before in place.

A run depends on its `Surroundings` as well, which a player cannot choose.
-/

namespace VirtualLooper.Scenario

/-- What a run depends on besides its scenario. -/
structure Surroundings where
  /-- Does the log let out that a line cannot be written? -/
  strictLog : Bool
  /-- How much the worker of a session does after a step, by the number of the step and the looper
  that the step has left. -/
  pace : Nat → Looper → Nat
  /-- The numbers that workers without a name of their own get, session by session. -/
  number : Nat → Nat

/-- After each step, everybody waits until the worker has nothing left to do.  The log is strict, and
no other threads begin. -/
def Surroundings.patient : Surroundings where
  strictLog := true
  pace _ s := s.memory.size + 3 * s.queue.size + 1
  number := (· + 1)

section Runs

variable (e : Surroundings)

/-- Runs the steps of a scenario, from the given number on.  Something that is no mapping where a
step should be ends the run. -/
def runSteps : (index : Nat) → List Value → Looper → Outcome Looper (List Check)
  | _, [], s => .ok [] s
  | index, v :: rest, s =>
    match Step.ofValue index v with
    | .error e => .failed e s
    | .ok step =>
      (runStep e.strictLog step s).bind fun checks s =>
        (runSteps (index + 1) rest (workFor (e.pace index s) s)).map (checks ++ ·)

/-- Stops a session that is still on at the end of a scenario.  A misuse is only logged. -/
def finish (s : Looper) : Outcome Looper Unit :=
  if s.running then
    (ask e.strictLog .stop s).attempt fun
      | .ok _, s => .ok () s
      | .error f, s =>
        if f.isMisuse then .ok () (s.note .main (.leftRunning f)) else .failed f s
  else .ok () s

def delivery (settings : Settings) (r : Record) : Delivery :=
  ⟨r.tag, .int r.time, .str (settings.nameAmong e.number r.thread)⟩

def stepsOf (fields : List (Value × Value)) : Except Failure (List Value) :=
  let steps := (Value.field? fields "steps").getD (.list [])
  match steps.elements? with
  | some vs => .ok vs
  | none => .error (.notIterable steps.kind)

def playOn (fields : List (Value × Value)) (s : Looper) : Outcome Looper Report :=
  match stepsOf fields with
  | .error f => .failed f s
  | .ok steps =>
    (runSteps e 0 steps s).bind fun checks s =>
      (finish e s).bind fun _ s =>
        .ok {
          name := (Value.field? fields "name").getD (.str "")
          checks
          dispatched := (s.recordsOf recorder).map (delivery e s.settings)
          finalTime := .int s.clock.now
          metadata := .dict [] } s

/-- What became of a run: refused before there was a looper, or played on one. -/
inductive Performance
  | refused (e : Failure)
  | played (o : Outcome Looper Report)

def looperFor (fields : List (Value × Value)) : Except Failure Looper := do
  let settings ← Settings.ofValue ((Value.field? fields "looper").getD .none)
  State.make settings none .empty

end Runs

inductive Source
  /-- The scenario that the player keeps. -/
  | kept
  | mapping (entries : List (Value × Value))
  /-- A place where there is no document, if the value can name a place at all. -/
  | nowhere (place : Value)
  /-- A document, as far as it could be read. -/
  | document (content : Except Failure Value)

/-- The scenario inside a mapping with these entries: what it has under that name, or else the
mapping itself. -/
def inside (mapping : Value) (entries : List (Value × Value)) : Value :=
  (Value.field? entries "scenario").getD mapping

/-- The scenario in the content of a document.  Content that counts as false is an empty mapping. -/
def ofContent (content : Value) : Except Failure Value :=
  if !content.truthy then .ok (.dict [])
  else
    match content.entries? with
    | some entries => .ok (inside content entries)
    | none => .error (.notMapping content.kind "get")

structure Player where
  scenario : Value
  /-- The looper that was made last, with what its receiver has recorded. -/
  looper : Option Looper

namespace Player

def empty : Player := ⟨.dict [], none⟩

def take (p : Player) : Source → Except Failure Player
  | .kept => .ok p
  | .mapping entries => .ok { p with scenario := inside (.dict entries) entries }
  | .nowhere place => .error (placeFailure place)
  | .document content => do return { p with scenario := ← ofContent (← content) }

/-- Only a run replaces the looper. -/
theorem looper_of_take {p p' : Player} {source : Source} (h : p.take source = .ok p') :
    p'.looper = p.looper := by
  cases source with
  | kept =>
    obtain rfl := Except.ok.inj h
    rfl
  | mapping entries =>
    obtain rfl := Except.ok.inj h
    rfl
  | nowhere place => cases h
  | document content =>
    simp only [take, bind, Except.bind] at h
    split at h
    · cases h
    · split at h
      · cases h
      · obtain rfl := Except.ok.inj h
        rfl

/-- Puts a new looper in the place of the one before, if the scenario is a mapping with settings of
which one can be made. -/
def equip (p : Player) : Except Failure Player :=
  match p.scenario.entries? with
  | some fields => (looperFor fields).map fun s => { p with looper := some s }
  | none => .error (.notMapping p.scenario.kind "get")

def play (e : Surroundings) (p : Player) : Performance × Player :=
  match p.looper with
  | some s =>
    let o := playOn e (p.scenario.entries?.getD []) s
    (.played o, { p with looper := o.state?.or p.looper })
  | none => (.refused (.notMapping .none "state"), p)

def playKept (e : Surroundings) (p : Player) : Performance × Player :=
  match p.equip with
  | .error f => (.refused f, p)
  | .ok p => p.play e

/-- Plays a scenario.  What the player keeps is replaced as far as the run comes. -/
def runIn (e : Surroundings) (p : Player) (source : Source) : Performance × Player :=
  match p.take source with
  | .error f => (.refused f, p)
  | .ok p => p.playKept e

def run (p : Player) (source : Source) : Performance × Player := p.runIn .patient source

end Player

end VirtualLooper.Scenario
