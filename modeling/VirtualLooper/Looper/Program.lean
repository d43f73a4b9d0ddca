import VirtualLooper.Message

/-! # Programs of handlers

What a handler does when it receives a message is a program: a tree of requests to the looper, each
followed by what the handler does with the reply, refusals included.  Between requests it may look
at the looper, and read and write a memory of type `σ` that all handlers share.  Callbacks of
messages are named by a type `κ`; what they do is again a program.
-/

namespace VirtualLooper

/-- The main thread, or the worker thread of a session; sessions are numbered from zero. -/
inductive Thread
  | main
  | worker (session : Nat)
  deriving DecidableEq, Repr

/-- What a handler can ask of its looper. -/
inductive Request (κ : Type)
  /-- Queue a message for a delay from now. -/
  | enqueue (tag delay : Value) (target : Option Target) (callback : Option κ)
  /-- Queue a message for an absolute due time. -/
  | enqueueAt (tag due : Value) (target : Option Target) (callback : Option κ)
  | has (tag : Value) (target : Option Target)
  | remove (tag : Value) (target : Option Target)
  | advance (amount : Value)
  | dispatchAll
  | dispatchNext
  | start
  | stop
  /-- Hand a tag to a receiver at once, past the queue. -/
  | handle (target : Target) (tag : Value)
  /-- Ask a recording receiver for what it has received; the word for that shows in a refusal. -/
  | records (target : Target) (used : String)
  /-- Make a recording receiver forget what it has received. -/
  | reset (target : Target)

/-- One message or direct call that a recording receiver has received. -/
structure Record where
  target : Target
  tag : Value
  time : Int
  thread : Thread

/-- What can be seen of a looper from outside. -/
structure Sight where
  now : Int
  pending : Nat
  nextDue : Option Int
  /-- Is nothing due? -/
  isIdle : Bool
  /-- Is a session of auto-dispatch going on? -/
  running : Bool
  /-- The thread that looks. -/
  thread : Thread

def Record.of (target : Target) (rs : List Record) : List Record :=
  rs.filter fun r => r.target = target

/-- The reply to a request that was not refused. -/
inductive Reply
  | nothing
  | receipt (r : Receipt)
  | flag (b : Bool)
  | count (n : Nat)
  | time (t : Int)
  | records (rs : List Record)

/-- A program over memory `σ` and callbacks `κ` that results in an `α` or fails. -/
inductive Program (σ κ α : Type)
  | done (a : α)
  | fail (e : Failure)
  | load (next : σ → Program σ κ α)
  | store (memory : σ) (next : Program σ κ α)
  | look (next : Sight → Program σ κ α)
  | ask (r : Request κ) (next : Except Failure Reply → Program σ κ α)

namespace Program

variable {σ κ α β : Type}

def attempt : Program σ κ α → (Except Failure α → Program σ κ β) → Program σ κ β
  | done a, k => k (.ok a)
  | fail e, k => k (.error e)
  | load next, k => load fun memory => (next memory).attempt k
  | store memory next, k => store memory (next.attempt k)
  | look next, k => look fun sight => (next sight).attempt k
  | ask r next, k => ask r fun reply => (next reply).attempt k

def andThen (p : Program σ κ α) (k : α → Program σ κ β) : Program σ κ β :=
  p.attempt fun
    | .ok a => k a
    | .error e => fail e

def request (r : Request κ) : Program σ κ Reply :=
  ask r fun
    | .ok reply => done reply
    | .error e => fail e

def update (f : σ → σ) (next : Program σ κ α) : Program σ κ α :=
  load fun memory => store (f memory) next

end Program

end VirtualLooper
