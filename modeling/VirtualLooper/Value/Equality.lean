import VirtualLooper.Value.Basic

/-! # Equality of values

Numbers are equal when they lie at the same place, whatever their kind; lists and tuples when they
have the same elements in order; mappings when they have the same entries in any order, and sets
when they have the same members.  A list never equals a tuple.

What is not a number equals nothing, not even itself.  Inside a container, though, one and the same
occurrence of it matches itself.  So there are two relations: `same`, by which the parts of
containers are compared, and `equal`, which differs from it only on a bare value that is not a
number.

A collection in a web is equal to itself, and to another one whose parts are the same.  To find that
out may take a comparison of the two that is going on already; then it never ends.
-/

namespace VirtualLooper

/-! ### Comparisons in a web -/

/-- What a part of a collection is compared by: a test of values, or the collection it links to. -/
inductive PartTest
  | value (test : Value → Bool)
  | link (index : Nat)

inductive CellTest
  | list (parts : List PartTest)
  | dict (entries : List ((Value → Bool) × PartTest))
  | pairs (entries : List (PartTest × PartTest))

/-- Compares a part, given how linked collections compare.  A value is no collection of a web. -/
def PartTest.meets? (linked : Nat → Nat → Option Bool) : PartTest → Part → Option Bool
  | value test, .value v => some (test v)
  | link i, .link j => linked i j
  | _, _ => some false

def PartTest.allMeet? (linked : Nat → Nat → Option Bool) :
    List PartTest → List Part → Option Bool
  | t :: ts, p :: ps =>
    match t.meets? linked p with
    | some true => allMeet? linked ts ps
    | result => result
  | [], [] => some true
  | _, _ => some false

def PartTest.pairsMeet? (linked : Nat → Nat → Option Bool) :
    List (PartTest × PartTest) → List (Part × Part) → Option Bool
  | t :: ts, p :: ps =>
    match allMeet? linked [t.1, t.2] [p.1, p.2] with
    | some true => pairsMeet? linked ts ps
    | result => result
  | [], [] => some true
  | _, _ => some false

/-- Compares each entry with the one of the other mapping that has an equal key. -/
def PartTest.entriesMeet? (linked : Nat → Nat → Option Bool) :
    List ((Value → Bool) × PartTest) → List (Value × Part) → Option Bool
  | [], _ => some true
  | (key, t) :: rest, others =>
    match others.find? fun other => key other.1 with
    | none => some false
    | some other =>
      match t.meets? linked other.2 with
      | some true => entriesMeet? linked rest others
      | result => result

/-- Compares two collections of one web by what the first is compared by.  The comparison has no
result if it goes deeper than the bound. -/
def CellTest.meet? (tests : List CellTest) (web : Web) : (bound : Nat) → Nat → Nat → Option Bool
  | 0, _, _ => none
  | bound + 1, i, j =>
    if i = j then some true
    else
      match tests[i]?, Web.at web j with
      | some (.list ts), .list ps =>
        if ts.length = ps.length then PartTest.allMeet? (meet? tests web bound) ts ps
        else some false
      | some (.dict ts), .dict es =>
        if ts.length = es.length then PartTest.entriesMeet? (meet? tests web bound) ts es
        else some false
      | some (.pairs ts), .pairs ps =>
        if ts.length = ps.length then PartTest.pairsMeet? (meet? tests web bound) ts ps
        else some false
      | _, _ => some false

/-- Compares two collections of a web.  A comparison that goes deeper than there are pairs of
collections comes back to a pair, and so never ends; then there is no result. -/
def CellTest.compare? (tests : List CellTest) (web : Web) (i j : Nat) : Option Bool :=
  meet? tests web (tests.length * web.length + 1) i j

namespace Value

mutual

/-- Equality of parts of a container. -/
def same : Value → Value → Bool
  | none, none => true
  | str s, str t => s = t
  | bytes bs, bytes cs => bs = cs
  | date d, date e => d = e
  | moment m, moment n => m.same n
  | list xs, list ys => sameElements xs ys
  | tuple xs, tuple ys => sameElements xs ys
  | dict es, dict fs => es.length = fs.length && sameEntries es fs
  | set xs, set ys => xs.length = ys.length && areMembers xs ys
  | float (.nan m), float (.nan n) => m = n
  | cell web i, cell other j => (CellTest.compare? (webTests web) other i j).getD false
  | a, b =>
    match a.place?, b.place? with
    | some p, some q => p = q
    | _, _ => false

def sameElements : List Value → List Value → Bool
  | [], [] => true
  | x :: xs, y :: ys => same x y && sameElements xs ys
  | _, _ => false

def areMembers : List Value → List Value → Bool
  | [], _ => true
  | x :: xs, ys => (ys.any fun y => same x y) && areMembers xs ys

/-- Has the second list an entry with an equal key and value for every entry of the first? -/
def sameEntries : List (Value × Value) → List (Value × Value) → Bool
  | [], _ => true
  | (k, v) :: rest, others =>
    (match others.find? fun other => same k other.1 with
      | some other => same v other.2
      | Option.none => false) && sameEntries rest others

def webTests : Web → List CellTest
  | [] => []
  | .list ps :: rest => .list (partTests ps) :: webTests rest
  | .dict es :: rest => .dict (entryTests es) :: webTests rest
  | .pairs es :: rest => .pairs (pairTests es) :: webTests rest

def partTests : List Part → List PartTest
  | [] => []
  | p :: rest => partTest p :: partTests rest

def entryTests : List (Value × Part) → List ((Value → Bool) × PartTest)
  | [] => []
  | (k, p) :: rest => (same k, partTest p) :: entryTests rest

def pairTests : List (Part × Part) → List (PartTest × PartTest)
  | [] => []
  | (a, b) :: rest => (partTest a, partTest b) :: pairTests rest

def partTest : Part → PartTest
  | .value v => .value (same v)
  | .link i => .link i

end

def endless : Value → Value → Bool
  | cell web i, cell other j => (CellTest.compare? (webTests web) other i j).isNone
  | _, _ => false

/-- Does the comparison of two element lists never end?  It ends at the first difference, and lists
of different lengths are not compared. -/
def areEndless (xs ys : List Value) : Bool := xs.length = ys.length && meetEndless xs ys
where
  meetEndless : List Value → List Value → Bool
    | x :: xs, y :: ys => endless x y || (same x y && meetEndless xs ys)
    | _, _ => false

def equal : Value → Value → Bool
  | float (.nan _), _ => false
  | a, b => same a b

def lookup? {α : Type} (entries : List (Value × α)) (key : Value) : Option α :=
  (entries.find? fun e => same key e.1).map (·.2)

def field? (entries : List (Value × Value)) (name : String) : Option Value :=
  lookup? entries (str name)

/-- Adds an entry; where the key is there already, only what stands under it is replaced. -/
def insertEntry {α : Type} : List (Value × α) → Value → α → List (Value × α)
  | [], key, a => [(key, a)]
  | e :: rest, key, a => if same key e.1 then (e.1, a) :: rest else e :: insertEntry rest key a

/-- The mapping with these entries, of equal keys the last value. -/
def ofEntries (entries : List (Value × Value)) : Value :=
  dict (entries.foldl (fun known e => insertEntry known e.1 e.2) [])

def distinct : List Value → List Value
  | [] => []
  | x :: xs => x :: (distinct xs).filter fun y => !same x y

mutual

/-- Is the first value less than the second?  Only numbers, texts, bytes, times and tuples of these
have an order; otherwise the answer is the pair of kinds that has none.  A day and a moment are
named in one order, whichever is the first. -/
def less? : Value → Value → Except (Kind × Kind) Bool
  | str s, str t => .ok (s.before t)
  | bytes bs, bytes cs => .ok (bs < cs)
  | date d, date e => .ok (d.number < e.number)
  | moment m, moment n =>
    if m.comparable n then .ok (m.before n) else .error (.moment, .moment)
  | date _, moment _ => .error (.moment, .date)
  | tuple xs, tuple ys => lessElements? xs ys
  | a, b =>
    if a.isNumber && b.isNumber then
      match a.place?, b.place? with
      | some p, some q => .ok (!q.le p)
      | _, _ => .ok false
    else .error (a.kind, b.kind)

/-- The order of element lists: the first difference decides, and a proper beginning is less. -/
def lessElements? : List Value → List Value → Except (Kind × Kind) Bool
  | _, [] => .ok false
  | [], _ => .ok true
  | x :: xs, y :: ys => if same x y then lessElements? xs ys else less? x y

end

def insertSorted? (x : Value) : List Value → Except (Kind × Kind) (List Value)
  | [] => .ok [x]
  | y :: ys => do
    if ← less? x y then pure (x :: y :: ys) else pure (y :: (← insertSorted? x ys))

def sorted? (xs : List Value) : Except (Kind × Kind) (List Value) :=
  xs.foldlM (fun done x => insertSorted? x done) []

end Value

end VirtualLooper
