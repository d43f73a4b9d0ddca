import VirtualLooper.Expectation
import VirtualLooper.Looper.Run

/-! # Scripts

A script is a list of operations on a looper and its handlers.  Handlers react to messages by rules:
each rule has a tag and a script.  Everything that handlers experience goes into a journal: each tag
that reaches a handler, each callback that runs, and how each operation of their scripts ended.

A scripted handler is only one kind of program; `script` and `react` say which.
-/

namespace VirtualLooper.Script

/-- An operation on a looper and its handlers, which are called by name. -/
inductive Op (κ : Type)
  | send (h : String) (tag : Value)
  | sendDelayed (h : String) (tag delay : Value)
  | sendAt (h : String) (tag due : Value)
  | post (h : String) (callback : κ)
  | postDelayed (h : String) (callback : κ) (delay : Value)
  | handlerHas (h : String) (tag : Value)
  | handlerRemove (h : String) (tag : Value)
  | handle (h : String) (tag : Value)
  | enqueue (tag delay : Value) (target : Option Target) (callback : Option κ)
  | enqueueAt (tag due : Value) (target : Option Target) (callback : Option κ)
  | has (tag : Value) (target : Option Target)
  | remove (tag : Value) (target : Option Target)
  | move (amount : Value)
  | now
  | dispatchAll
  | dispatchNext
  | start
  | stop
  | throw (e : Failure)
  | records (h : String)
  | tags (h : String)
  | reset (h : String)
  | expect (h : String) (name : String) (e : Expectation)
  /-- An operation that fails for want of proper arguments. -/
  | refused (name : String) (e : Failure)

/-- An operation in a script; a failure ends the script unless it is caught. -/
structure Step (κ : Type) where
  op : Op κ
  caught : Bool

/-- A callback: an identity, as the journal shows it, and the script that it runs. -/
inductive Callback
  | mk (id : String) (script : List (Step Callback))

inductive Answer
  | nothing
  | receipt (r : Receipt)
  | flag (b : Bool)
  | count (n : Nat)
  | time (t : Int)
  /-- The current time, asked for in two ways. -/
  | times (now current : Int)
  | records (rs : List Record)
  | tags (ts : List Value)

def Op.name {κ : Type} : Op κ → String
  | send .. => "send"
  | sendDelayed .. => "send_delayed"
  | sendAt .. => "send_at"
  | post .. => "post"
  | postDelayed .. => "post_delayed"
  | handlerHas .. => "h_has"
  | handlerRemove .. => "h_remove"
  | handle .. => "handle"
  | enqueue .. => "enqueue"
  | enqueueAt .. => "enqueue_at"
  | has .. => "has"
  | remove .. => "remove"
  | move _ => "move"
  | now => "now"
  | dispatchAll => "dispatch_all"
  | dispatchNext => "dispatch_next"
  | start => "start"
  | stop => "stop"
  | throw .. => "raise"
  | records _ => "records"
  | tags _ => "tags"
  | reset _ => "reset"
  | expect _ name _ => name
  | refused name _ => name

inductive Event
  | received (h : String) (tag : Value) (time : Int) (thread : Thread)
  | called (id : String) (time : Int) (thread : Thread)
  | acted (op : String) (result : Except Failure Answer)

/-- The journal, and how often each rule of each handler has fired. -/
structure Memory where
  events : List Event
  fired : List (String × Nat)

namespace Memory

def empty : Memory := ⟨[], []⟩

def add (m : Memory) (e : Event) : Memory := { m with events := m.events ++ [e] }

def timesFired (m : Memory) (h : String) (rule : Nat) : Nat :=
  m.fired.countP fun f => f = (h, rule)

def fire (m : Memory) (h : String) (rule : Nat) : Memory :=
  { m with fired := (h, rule) :: m.fired }

end Memory

abbrev Action := Program Memory Callback

def Answer.ofReply : Reply → Answer
  | .nothing => .nothing
  | .receipt r => .receipt r
  | .flag b => .flag b
  | .count n => .count n
  | .time t => .time t
  | .records rs => .records rs

/-- The tag of messages that only run a callback. -/
def noTag : Value := .none

def Op.program : Op Callback → Action Answer
  | send h tag => request (.enqueue tag (.int 0) (some (.handler h)) none)
  | sendDelayed h tag delay => request (.enqueue tag delay (some (.handler h)) none)
  | sendAt h tag due => request (.enqueueAt tag due (some (.handler h)) none)
  | post h callback => request (.enqueue noTag (.int 0) (some (.handler h)) (some callback))
  | postDelayed h callback delay =>
    request (.enqueue noTag delay (some (.handler h)) (some callback))
  | handlerHas h tag => request (.has tag (some (.handler h)))
  | handlerRemove h tag => request (.remove tag (some (.handler h)))
  | handle h tag => request (.handle (.handler h) tag)
  | enqueue tag delay target callback => request (.enqueue tag delay target callback)
  | enqueueAt tag due target callback => request (.enqueueAt tag due target callback)
  | has tag target => request (.has tag target)
  | remove tag target => request (.remove tag target)
  | move amount => request (.advance amount)
  | now => .look fun s => .done (.times s.now s.now)
  | dispatchAll => request .dispatchAll
  | dispatchNext => request .dispatchNext
  | start => request .start
  | stop => request .stop
  | throw e => .fail e
  | records h => request (.records (.handler h) "records")
  | tags h => (tagsOf h).andThen fun ts => .done (.tags ts)
  | reset h => request (.reset (.handler h))
  | expect h _ e => (tagsOf h).andThen fun ts =>
      match e.check ts with
      | .ok () => .done .nothing
      | .error e => .fail e
  | refused _ e => .fail e
where
  request (r : Request Callback) : Action Answer :=
    (Program.request r).andThen fun reply => .done (.ofReply reply)
  tagsOf (h : String) : Action (List Value) :=
    (Program.request (.records (.handler h) "tags")).andThen fun
      | .records rs => .done (rs.map (·.tag))
      | _ => .done []

/-- The program of a script.  Each operation is entered in the journal once it is over. -/
def script : List (Step Callback) → Action Unit
  | [] => .done ()
  | step :: rest =>
    step.op.program.attempt fun result =>
      .update (·.add (.acted step.op.name result))
        (match result with
          | .ok _ => script rest
          | .error e => if step.caught then script rest else .fail e)

def Callback.program : Callback → Action Unit
  | mk id steps => .look fun s =>
      .update (·.add (.called id s.now s.thread)) (script steps)

/-- A rule of a handler: on this very tag, run this script, at most so many times. -/
structure Rule where
  tag : Value
  times : Option Nat
  script : List (Step Callback)

/-- Does a rule apply to a tag?  Tags that are equal but of different kinds are told apart. -/
def Rule.matches (r : Rule) (tag : Value) : Bool := r.tag.written = tag.written

def Rule.mayFire (r : Rule) (fired : Nat) : Bool := r.times.all (fired < ·)

/-- The reaction of a handler to a tag: the rules from the given number on, in order. -/
def react (h : String) (tag : Value) : (number : Nat) → List Rule → Action Unit
  | _, [] => .done ()
  | number, rule :: rest =>
    if rule.matches tag then
      .load fun memory =>
        if rule.mayFire (memory.timesFired h number) then
          .store (memory.fire h number)
            ((script rule.script).andThen fun _ => react h tag (number + 1) rest)
        else react h tag (number + 1) rest
    else react h tag (number + 1) rest

/-- A handler: does it record what it receives, and by which rules does it react, if at all? -/
structure Handler where
  name : String
  recording : Bool
  rules : Option (List Rule)

/-- The handler of a name; of several the last one. -/
def handlerNamed? (handlers : List Handler) (name : String) : Option Handler :=
  handlers.reverse.find? (·.name = name)

/-- The receiver that a name stands for, given the names of handlers: one of these, or else the
receiver that the looper falls back on, if that is its name. -/
def targetNamed? (handlers : List String) (fallback : Option String) (name : String) :
    Option Target :=
  if handlers.contains name then some (.handler name)
  else if fallback = some name then some (.fallback name)
  else none

def receive (h : String) (tag : Value) (rules : List Rule) : Action Unit :=
  .look fun s => .update (·.add (.received h tag s.now s.thread)) (react h tag 0 rules)

def world (handlers : List Handler) : World Memory Callback where
  receive
    | .handler h, tag =>
      match (handlerNamed? handlers h).bind (·.rules) with
      | some rules => receive h tag rules
      | none => .done ()
    | .fallback h, tag => receive h tag []
  invoke := Callback.program
  records
    | .handler h => (handlerNamed? handlers h).any (·.recording)
    | .fallback _ => false

end VirtualLooper.Script
