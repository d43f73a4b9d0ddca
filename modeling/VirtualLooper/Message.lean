import VirtualLooper.Value.Equality
import VirtualLooper.Failure
import VirtualLooper.Heap

/-! # Messages

A message waits for its due time.  Messages are ordered by due time, and those that are due at the
same time by the sequence in which they were queued.
-/

namespace VirtualLooper

/-- Who a message is delivered to: a named handler, or the receiver that a looper falls back on for
messages queued without one. -/
inductive Target
  | handler (name : String)
  | fallback (name : String)
  deriving DecidableEq, Repr

def Target.name : Target → String
  | handler n => n
  | fallback n => n

/-- A call of a callback, or of a receiver with a tag; `κ` is the type of callbacks. -/
inductive Call (κ : Type)
  | callback (c : κ)
  | receiver (target : Target) (tag : Value)

structure Message (κ : Type) where
  due : Int
  seq : Nat
  tag : Value
  target : Option Target
  callback : Option κ

namespace Message

variable {κ : Type}

/-- The order of delivery. -/
def before (a b : Message κ) : Bool :=
  a.due < b.due || (a.due = b.due && a.seq < b.seq)

theorem before_iff {a b : Message κ} :
    a.before b = true ↔ a.due < b.due ∨ a.due = b.due ∧ a.seq < b.seq := by
  simp [before]

theorem not_before_iff {a b : Message κ} :
    a.before b = false ↔ b.due < a.due ∨ b.due = a.due ∧ b.seq ≤ a.seq := by
  rw [← Bool.not_eq_true, before_iff]
  omega

instance : Precedence (Message κ) where
  before := before
  asymm a b h := by
    rw [before_iff] at h
    rw [not_before_iff]
    omega
  negTrans a b c hab hbc := by
    rw [not_before_iff] at *
    omega

def level (a b : Message κ) : Bool := a.due = b.due && a.seq = b.seq

/-- Is the message due at the given time?  The time may be any number; one that is not a number has
nothing due. -/
def isDue (m : Message κ) (now : Value) : Except Failure Bool :=
  if now.isNumber then
    .ok (match now.place? with
      | some p => (Binary64.Place.ofInt m.due).le p
      | none => false)
  else .error (.cannotCompare "<=" .int now.kind)

theorem isDue_int (m : Message κ) (now : Int) : m.isDue (.int now) = .ok (decide (m.due ≤ now)) :=
  congrArg Except.ok (Binary64.Place.ofInt_le_ofInt m.due now)

/-- Has the message this tag and, where a target is given, that target? -/
def hasTag (m : Message κ) (tag : Value) (target : Option Target) : Bool :=
  Value.equal m.tag tag && (target.isNone || m.target == target)

/-- What delivering the message calls: its callback if it has one, or else its target, with the tag
of the message. -/
def call? (m : Message κ) : Option (Call κ) :=
  match m.callback, m.target with
  | some c, _ => some (.callback c)
  | none, some target => some (.receiver target m.tag)
  | none, none => none

def written (m : Message κ) : String :=
  "ScheduledMessage(due_time=" ++ toString m.due ++ ", sequence=" ++ toString m.seq ++ ", tag=" ++
    m.tag.written ++ ")"

end Message

/-- What a sender learns about a message: everything but what its callback does. -/
structure Receipt where
  due : Int
  seq : Nat
  tag : Value
  target : Option Target
  hasCallback : Bool

def Message.receipt {κ : Type} (m : Message κ) : Receipt :=
  ⟨m.due, m.seq, m.tag, m.target, m.callback.isSome⟩

end VirtualLooper
