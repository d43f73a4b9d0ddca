import Mathlib.Algebra.Ring.Int.Defs
import Mathlib.Data.List.Forall2
import VirtualLooper.Script.Basic

/-!
# Tags that are expected in order

Expected tags are in order if they stand at some places of the delivered tags, one behind the other
(`StandAt`).  The check of an order does not try all choices of places: it seeks each tag from the
place behind the one where the tag before was found, and goes on from the first place that it finds
(`scan`).  Nothing gets lost by that, since these places are as early as those of any other choice
(`exists_scan_of_standAt`), and it stays inside the delivered tags (`seek_le`).
-/

namespace VirtualLooper

def Value.isNaN : Value → Bool
  | .float (.nan _) => true
  | _ => false

theorem Value.equal_of_isNaN {a : Value} (h : a.isNaN = true) (b : Value) :
    Value.equal a b = false ∧ Value.equal b a = false := by
  cases a with
  | float x =>
    cases x with
    | nan mark =>
      refine ⟨rfl, ?_⟩
      cases b with
      | float y => cases y <;> simp [equal, same, place?, Binary64.place?]
      | _ => simp [equal, same, place?, Binary64.place?]
    | _ => cases h
  | _ => cases h

/-- Parts of a list are compared as values are, but for numbers that are none. -/
theorem Value.equal_of_same {a b : Value} (hNumber : a.isNaN = false) (h : Value.same a b = true) :
    Value.equal a b = true := by
  cases a with
  | float x =>
    cases x with
    | nan mark => cases hNumber
    | _ => exact h
  | _ => exact h

namespace Expectation

/-! ### Places of tags -/

/-- The expected tags stand at these places of a list, in order. -/
structure StandAt (tags : List Value) (places : List Nat) (expected : List Value) : Prop where
  increasing : places.Pairwise (· < ·)
  equal : List.Forall₂ (fun place tag => ∃ t, tags[place]? = some t ∧ Value.equal t tag = true)
    places expected

namespace StandAt

variable {tags expected longer : List Value} {places : List Nat}

theorem nil (tags : List Value) : StandAt tags [] [] := ⟨.nil, .nil⟩

theorem sublist (h : StandAt tags places longer) (hSub : expected.Sublist longer) :
    ∃ fewer, fewer.Sublist places ∧ StandAt tags fewer expected := by
  obtain ⟨hIncreasing, hEqual⟩ := h
  induction hSub generalizing places with
  | slnil => exact ⟨[], List.nil_sublist _, .nil tags⟩
  | cons tag hSub ih =>
    cases hEqual with
    | cons hFirst hRest =>
      obtain ⟨fewer, hFewer, hStand⟩ := ih hIncreasing.of_cons hRest
      exact ⟨fewer, hFewer.cons _, hStand⟩
  | cons_cons tag hSub ih =>
    cases hEqual with
    | @cons place _ places _ hFirst hRest =>
      obtain ⟨fewer, hFewer, hStand⟩ := ih hIncreasing.of_cons hRest
      refine ⟨place :: fewer, hFewer.cons_cons place, ?_, .cons hFirst hStand.equal⟩
      refine List.pairwise_cons.2 ⟨fun later hLater => ?_, hStand.increasing⟩
      exact List.rel_of_pairwise_cons hIncreasing (hFewer.subset hLater)

theorem exists_equal (h : StandAt tags places expected) {tag : Value} (hTag : tag ∈ expected) :
    ∃ t, Value.equal t tag = true := by
  obtain ⟨fewer, -, hStand⟩ := h.sublist (List.singleton_sublist.2 hTag)
  cases hStand.equal with
  | cons hFirst _ =>
    obtain ⟨t, -, hEqual⟩ := hFirst
    exact ⟨t, hEqual⟩

end StandAt

/-! ### Seeking one tag after the other -/

/-- The first place from the given one on at which a tag stands, or else the end. -/
def seek (tag : Value) (tags : List Value) (place : Nat) : Nat :=
  if h : place < tags.length then
    if Value.equal tags[place] tag then place else seek tag tags (place + 1)
  else place
termination_by tags.length - place

/-- The places at which expected tags are found, if each is sought behind the one before, the first
of them from the given place on.  There are none if the end is reached. -/
def scan (tags : List Value) : (expected : List Value) → (place : Nat) → Option (List Nat)
  | [], _ => some []
  | tag :: expected, place =>
    let found := seek tag tags place
    if found = tags.length then none
    else (scan tags expected (found + 1)).map (found :: ·)

section Seek

variable {tags : List Value} {tag : Value} {place : Nat}

theorem le_seek (tag : Value) (tags : List Value) (place : Nat) : place ≤ seek tag tags place := by
  fun_induction seek tag tags place with
  | case1 place hInside hEqual => exact Nat.le_refl place
  | case2 place hInside hOther ih => omega
  | case3 place hEnd => exact Nat.le_refl place

theorem seek_le (tag : Value) (h : place ≤ tags.length) : seek tag tags place ≤ tags.length := by
  fun_induction seek tag tags place with
  | case1 place hInside hEqual => exact h
  | case2 place hInside hOther ih => exact ih hInside
  | case3 place hEnd => exact h

/-- A place before the end at which a search ends is one at which the tag stands. -/
theorem equal_of_seek_lt (h : seek tag tags place < tags.length) :
    ∃ t, tags[seek tag tags place]? = some t ∧ Value.equal t tag = true := by
  fun_induction seek tag tags place with
  | case1 place hInside hEqual => exact ⟨tags[place], List.getElem?_eq_getElem hInside, hEqual⟩
  | case2 place hInside hOther ih => exact ih h
  | case3 place hEnd => exact absurd h hEnd

theorem seek_le_of_equal {later : Nat} (hLater : place ≤ later) {t : Value}
    (ht : tags[later]? = some t) (hEqual : Value.equal t tag = true) :
    seek tag tags place ≤ later := by
  fun_induction seek tag tags place with
  | case1 place hInside hHere => exact hLater
  | case2 place hInside hOther ih =>
    refine ih (Nat.lt_of_le_of_ne hLater fun hSame => ?_)
    subst hSame
    rw [List.getElem?_eq_getElem hInside, Option.some.injEq] at ht
    exact hOther (ht ▸ hEqual)
  | case3 place hEnd => exact hLater

/-- What is left behind the first tag that equals the expected one is what stands behind the place
at which it is found. -/
theorem after?_drop (h : place ≤ tags.length) :
    after? tag (tags.drop place) =
      if seek tag tags place = tags.length then none
      else some (tags.drop (seek tag tags place + 1)) := by
  fun_induction seek tag tags place with
  | case1 place hInside hEqual =>
    rw [List.drop_eq_getElem_cons hInside, after?, if_pos hEqual, if_neg (Nat.ne_of_lt hInside)]
  | case2 place hInside hOther ih =>
    rw [List.drop_eq_getElem_cons hInside, after?, if_neg hOther, ih hInside]
  | case3 place hEnd =>
    have hLast : place = tags.length := by omega
    rw [if_pos hLast, hLast, List.drop_length, after?]

end Seek

section Scan

variable {tags expected : List Value} {place : Nat} {places : List Nat}

/-- To look for tags in what is left is to look for them from a place on. -/
theorem inOrder_drop (h : place ≤ tags.length) :
    inOrder expected (tags.drop place) = (scan tags expected place).isSome := by
  induction expected generalizing place with
  | nil => rfl
  | cons tag expected ih =>
    rw [inOrder, scan, after?_drop h]
    by_cases hEnd : seek tag tags place = tags.length
    · rw [if_pos hEnd, if_pos hEnd]
      rfl
    · have hInside := seek_le tag h
      rw [if_neg hEnd, if_neg hEnd, Option.isSome_map]
      exact ih (by omega)

/-- The tags stand at the places at which they are found, which are inside the list. -/
theorem standAt_of_scan (h : place ≤ tags.length) (hScan : scan tags expected place = some places) :
    StandAt tags places expected ∧ ∀ p ∈ places, place ≤ p ∧ p < tags.length := by
  induction expected generalizing place places with
  | nil =>
    obtain rfl : [] = places := Option.some.inj hScan
    exact ⟨.nil tags, by simp⟩
  | cons tag expected ih =>
    rw [scan] at hScan
    split at hScan
    · cases hScan
    · rename_i hEnd
      obtain ⟨rest, hRest, rfl⟩ := Option.map_eq_some_iff.1 hScan
      have hFound := le_seek tag tags place
      have hInside := seek_le tag h
      have hBefore : seek tag tags place < tags.length := by omega
      obtain ⟨hStand, hPlaces⟩ := ih hBefore hRest
      refine ⟨⟨List.pairwise_cons.2 ⟨fun p hp => (hPlaces p hp).1, hStand.increasing⟩,
        .cons (equal_of_seek_lt hBefore) hStand.equal⟩, ?_⟩
      intro p hp
      rcases List.mem_cons.1 hp with rfl | hp
      · exact ⟨hFound, hBefore⟩
      · have hLater := hPlaces p hp
        omega

/-- **No choice of places is earlier than the one that is found**, so that one is found if there is
any. -/
theorem exists_scan_of_standAt (hStand : StandAt tags places expected)
    (hFrom : ∀ p ∈ places, place ≤ p) :
    ∃ found, scan tags expected place = some found ∧ List.Forall₂ (· ≤ ·) found places := by
  induction expected generalizing place places with
  | nil =>
    cases hStand.equal
    exact ⟨[], rfl, .nil⟩
  | cons tag expected ih =>
    obtain ⟨hIncreasing, hEqual⟩ := hStand
    cases hEqual with
    | @cons first _ places _ hFirst hRest =>
      obtain ⟨t, ht, hSame⟩ := hFirst
      obtain ⟨hLater, hIncreasing'⟩ := List.pairwise_cons.1 hIncreasing
      -- the tag is found here or earlier, and so the others may stay where they are
      have hFound : seek tag tags place ≤ first :=
        seek_le_of_equal (hFrom first List.mem_cons_self) ht hSame
      have hInside : first < tags.length := (List.getElem?_eq_some_iff.1 ht).1
      have hEnd : seek tag tags place ≠ tags.length := by omega
      have hBehind : ∀ p ∈ places, seek tag tags place + 1 ≤ p :=
        fun p hp => Nat.lt_of_le_of_lt hFound (hLater p hp)
      obtain ⟨found, hScan, hEarlier⟩ := ih ⟨hIncreasing', hRest⟩ hBehind
      refine ⟨seek tag tags place :: found, ?_, .cons hFound hEarlier⟩
      rw [scan, if_neg hEnd, hScan]
      rfl

end Scan

/-! ### The check -/

section Check

variable {tags expected : List Value}

theorem length_eq_of_sameElements (h : Value.sameElements tags expected = true) :
    tags.length = expected.length := by
  induction tags generalizing expected with
  | nil => cases expected with
    | nil => rfl
    | cons tag expected => simp [Value.sameElements] at h
  | cons t tags ih => cases expected with
    | nil => simp [Value.sameElements] at h
    | cons tag expected =>
      rw [Value.sameElements, Bool.and_eq_true] at h
      exact congrArg (· + 1) (ih h.2)

theorem check_order_eq_ok :
    (order expected).check tags = .ok () ↔
      isEndlessOrder expected tags = false ∧ inOrder expected tags = true := by
  rw [check, isEndless, mismatch?]
  cases isEndlessOrder expected tags <;> cases inOrder expected tags <;> simp

/-- The check of a sequence compares the tags one by one. -/
theorem check_sequence_eq_ok :
    (sequence expected).check tags = .ok () ↔
      Value.areEndless.meetEndless tags expected = false ∧
        Value.sameElements tags expected = true := by
  rw [check, isEndless, mismatch?, Value.areEndless]
  cases hSame : Value.sameElements tags expected with
  | false => split <;> simp
  | true =>
    have hLength := length_eq_of_sameElements hSame
    cases Value.areEndless.meetEndless tags expected <;> simp [hLength]

theorem check_order_eq_error (hEnds : isEndlessOrder expected tags = false)
    (hNot : inOrder expected tags = false) :
    (order expected).check tags =
      .error (Failure.mismatch (.order expected) tags).orUnwritable := by
  simp [check, isEndless, mismatch?, hEnds, hNot]

theorem isEndlessSearch_eq_false {tag : Value} (h : ∀ t ∈ tags, Value.endless t tag = false) :
    isEndlessSearch tag tags = false := by
  induction tags with
  | nil => rfl
  | cons t rest ih =>
    rw [isEndlessSearch, h t List.mem_cons_self, ih fun t ht => h t (List.mem_cons_of_mem _ ht)]
    simp

theorem subset_of_after? {tag : Value} {rest : List Value} (h : after? tag tags = some rest) :
    rest ⊆ tags := by
  induction tags with
  | nil => cases h
  | cons t tags ih =>
    rw [after?] at h
    split at h
    · obtain rfl := Option.some.inj h
      exact List.subset_cons_self t tags
    · exact List.subset_cons_of_subset t (ih h)

theorem isEndlessOrder_eq_false
    (h : ∀ t ∈ tags, ∀ tag ∈ expected, Value.endless t tag = false) :
    isEndlessOrder expected tags = false := by
  induction expected generalizing tags with
  | nil => rfl
  | cons tag expected ih =>
    have hFirst := isEndlessSearch_eq_false fun t ht => h t ht tag List.mem_cons_self
    rw [isEndlessOrder, hFirst, Bool.false_or]
    cases hAfter : after? tag tags with
    | none => rfl
    | some rest =>
      exact ih fun t ht e he => h t (subset_of_after? hAfter ht) e (List.mem_cons_of_mem _ he)

theorem inOrder_iff : inOrder expected tags = true ↔ ∃ places, StandAt tags places expected := by
  have hScan : inOrder expected (tags.drop 0) = (scan tags expected 0).isSome :=
    inOrder_drop (Nat.zero_le _)
  rw [List.drop_zero] at hScan
  rw [hScan, Option.isSome_iff_exists]
  constructor
  · rintro ⟨places, hFound⟩
    exact ⟨places, (standAt_of_scan (Nat.zero_le _) hFound).1⟩
  · rintro ⟨places, hStand⟩
    obtain ⟨found, hFound, -⟩ := exists_scan_of_standAt hStand fun p _ => Nat.zero_le p
    exact ⟨found, hFound⟩

/-- Tags that are the expected ones, one by one, are in order, and are found by comparisons of the
same pairs. -/
theorem inOrder_of_sameElements (hNumbers : ∀ t ∈ tags, t.isNaN = false)
    (hEnds : Value.areEndless.meetEndless tags expected = false)
    (h : Value.sameElements tags expected = true) :
    isEndlessOrder expected tags = false ∧ inOrder expected tags = true := by
  induction tags generalizing expected with
  | nil =>
    cases expected with
    | nil => exact ⟨rfl, rfl⟩
    | cons tag expected => simp [Value.sameElements] at h
  | cons t tags ih =>
    cases expected with
    | nil => simp [Value.sameElements] at h
    | cons tag expected =>
      rw [Value.sameElements, Bool.and_eq_true] at h
      rw [Value.areEndless.meetEndless, h.1, Bool.true_and, Bool.or_eq_false_iff] at hEnds
      have hFirst := Value.equal_of_same (hNumbers t List.mem_cons_self) h.1
      have hAfter : after? tag (t :: tags) = some tags := by rw [after?, if_pos hFirst]
      rw [isEndlessOrder, inOrder, isEndlessSearch, hEnds.1, hFirst, hAfter]
      exact ih (fun t ht => hNumbers t (List.mem_cons_of_mem _ ht)) hEnds.2 h.2

/-- What is expected of a recording handler is compared with the tags of its records, and nothing
changes by that. -/
theorem run_expect (w : World Script.Memory Script.Callback) {h : String}
    (hRecords : w.records (.handler h) = true) (name : String) (e : Expectation) (bound : Nat)
    (thread : Thread) (s : State Script.Memory Script.Callback) :
    (Script.Op.expect h name e).program.run (perform w (bound + 1) thread) thread s =
      .ofResult ((e.check ((s.recordsOf (.handler h)).map (·.tag))).map fun _ => .nothing) s := by
  simp only [Script.Op.program, Script.Op.program.tagsOf, Program.request, Program.andThen,
    Program.attempt, Program.run, perform, State.respond, if_pos hRecords, Outcome.ofResult,
    Outcome.attempt]
  cases e.check ((s.recordsOf (.handler h)).map (·.tag)) with
  | ok u => rfl
  | error e => rfl

end Check

/-- **The check of an order accepts exactly the subsequences.**  If its comparisons end, it passes
if, and only if, there are places, one behind the other, at which the expected tags stand.  Else it
fails by a mismatch that carries all delivered tags, as long as these tags and the expected ones can
be written; if one of them cannot, the check fails for that.  It looks at places inside these tags
only, and finds those that are as early as any.  A number that is none matches nothing; tags that
are delivered exactly as expected are in order, if no such number is among them; and so are fewer
tags, if more are.  What a handler has recorded stays as it is. -/
theorem check_order (tags expected : List Value) :
    ((order expected).check tags = .ok () →
      ∃ places, StandAt tags places expected) ∧
      (isEndlessOrder expected tags = true →
        (order expected).check tags = .error .endlessComparison) ∧
      ((∀ t ∈ tags, ∀ tag ∈ expected, Value.endless t tag = false) →
        isEndlessOrder expected tags = false) ∧
      (isEndlessOrder expected tags = false →
        ((order expected).check tags = .ok () ↔ ∃ places, StandAt tags places expected) ∧
        ((¬ ∃ places, StandAt tags places expected) →
          ((Value.areWritable expected = true ∧ Value.areWritable tags = true →
              (order expected).check tags = .error (.mismatch (.order expected) tags) ∧
                (Failure.mismatch (.order expected) tags).errorClass = .dispatchAssertion) ∧
            (¬ (Value.areWritable expected = true ∧ Value.areWritable tags = true) →
              (order expected).check tags = .error .tooLongToWrite)))) ∧
      (inOrder expected tags = (scan tags expected 0).isSome ∧
        (∀ place ≤ tags.length, ∀ tag, seek tag tags place ≤ tags.length) ∧
        ∀ found, scan tags expected 0 = some found →
          StandAt tags found expected ∧ (∀ place ∈ found, place < tags.length) ∧
            ∀ places, StandAt tags places expected → List.Forall₂ (· ≤ ·) found places) ∧
      ((∃ tag ∈ expected, tag.isNaN = true) → (order expected).check tags ≠ .ok ()) ∧
      ((∀ t ∈ tags, t.isNaN = false) → (sequence expected).check tags = .ok () →
        (order expected).check tags = .ok ()) ∧
      (∀ longer, expected.Sublist longer → (order longer).check tags = .ok () →
        isEndlessOrder expected tags = false → (order expected).check tags = .ok ()) ∧
      ∀ (w : World Script.Memory Script.Callback) (h name : String) (bound : Nat) (thread : Thread)
        (s : State Script.Memory Script.Callback), w.records (.handler h) = true →
        (s.recordsOf (.handler h)).map (·.tag) = tags →
        (Script.Op.expect h name (order expected)).program.run (perform w (bound + 1) thread) thread
          s = .ofResult (((order expected).check tags).map fun _ => .nothing) s := by
  have hPlaces (expected : List Value) (h : (order expected).check tags = .ok ()) :
      ∃ places, StandAt tags places expected :=
    inOrder_iff.1 (check_order_eq_ok.1 h).2
  have hScan : inOrder expected tags = (scan tags expected 0).isSome := by
    rw [← inOrder_drop (Nat.zero_le tags.length), List.drop_zero]
  refine ⟨hPlaces expected, ?_, isEndlessOrder_eq_false, fun hEnds => ⟨⟨hPlaces expected, ?_⟩, ?_⟩,
    ⟨hScan, ?_, ?_⟩, ?_, ?_, ?_, ?_⟩
  · intro hEndless
    rw [check, isEndless, if_pos hEndless]
  · exact fun hStand => check_order_eq_ok.2 ⟨hEnds, inOrder_iff.2 hStand⟩
  · intro hNone
    rw [← inOrder_iff, Bool.not_eq_true] at hNone
    rw [check_order_eq_error hEnds hNone]
    refine ⟨fun ⟨hExpected, hTags⟩ => ⟨?_, rfl⟩, fun hNot => ?_⟩
    · simp [Failure.orUnwritable, Failure.isWritable, Mismatch.isWritable, hExpected, hTags]
    · rw [← Bool.and_eq_true] at hNot
      exact congrArg Except.error (if_neg hNot)
  · exact fun place hPlace tag => seek_le tag hPlace
  · intro found hFound
    obtain ⟨hStand, hInside⟩ := standAt_of_scan (Nat.zero_le _) hFound
    refine ⟨hStand, fun place hPlace => (hInside place hPlace).2, ?_⟩
    intro places hOther
    obtain ⟨found', hFound', hEarlier⟩ := exists_scan_of_standAt hOther fun p _ => Nat.zero_le p
    obtain rfl : found = found' := Option.some.inj (hFound.symm.trans hFound')
    exact hEarlier
  · rintro ⟨tag, hTag, hNaN⟩ hOk
    obtain ⟨places, hStand⟩ := hPlaces expected hOk
    obtain ⟨t, hEqual⟩ := hStand.exists_equal hTag
    rw [(Value.equal_of_isNaN hNaN t).2] at hEqual
    cases hEqual
  · intro hNumbers hSequence
    obtain ⟨hEnds, hSame⟩ := check_sequence_eq_ok.1 hSequence
    exact check_order_eq_ok.2 (inOrder_of_sameElements hNumbers hEnds hSame)
  · intro longer hSub hLonger hEnds
    obtain ⟨places, hStand⟩ := hPlaces longer hLonger
    obtain ⟨fewer, -, hFewer⟩ := hStand.sublist hSub
    exact check_order_eq_ok.2 ⟨hEnds, inOrder_iff.2 ⟨fewer, hFewer⟩⟩
  · rintro w h name bound thread s hRecords rfl
    exact run_expect w hRecords name (order expected) bound thread s

/-- The expected tag is not found, but an integer of so many digits cannot be written either, and so
no mismatch is reported. -/
theorem unwritten_order :
    (order [.int (10 ^ 4300)]).check [] = .error .tooLongToWrite ∧
      Failure.tooLongToWrite.errorClass = .value := by
  have hLong : Value.areWritable [.int (10 ^ 4300)] = false := by decide +kernel
  refine ⟨?_, rfl⟩
  rw [check_order_eq_error rfl rfl]
  refine congrArg Except.error (if_neg ?_)
  rw [Failure.isWritable, Mismatch.isWritable, hLong]
  exact Bool.false_ne_true

/-- Numbers of all kinds match if they are equal, and the last tag may be the one that is sought. -/
example : inOrder [.int 1, .int 1, .str "b"]
    [.str "a", .float (Binary64.ofInt 1), .str "a", .bool true, .str "b"] = true := by
  decide +kernel

end Expectation

end VirtualLooper
