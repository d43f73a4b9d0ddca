import VirtualLooper.Proofs.Value.Fields
import VirtualLooper.Report

/-!
# The two forms of a finding

A finding is added to a report as a check that is made of its time and its fields, or as a mapping of
these fields, from which the report makes the check.  A sequence of findings can be added in either
form each time: that always succeeds, and every report comes to the same checks, up to their details.
A check that is made of its fields keeps the details among them, but the report leaves them out when
it is given the mapping.  So the reports are the same if no details are given where the forms differ,
and only then.

Whether a check is passed does not depend on its details.  Hence the same checks fail, and the reports
are both passed or both not.
-/

namespace VirtualLooper

namespace Check

/-- Checks that are the same in all other fields than their details. -/
structure AgreeButDetails (c d : Check) : Prop where
  timestamp : c.timestamp = d.timestamp
  passed : c.passed = d.passed
  description : c.description = d.description
  expected : c.expected = d.expected
  actual : c.actual = d.actual

theorem AgreeButDetails.refl (c : Check) : AgreeButDetails c c :=
  ⟨rfl, rfl, rfl, rfl, rfl⟩

theorem AgreeButDetails.isPassed {c d : Check} (h : AgreeButDetails c d) :
    c.isPassed = d.isPassed :=
  congrArg Value.truthy h.passed

/-- A check is made of all entries if these stand under names of its fields, and the two that are
required are among them. -/
theorem ofFields_of_known {entries : List (Value × Value)} {timestamp passed : Value}
    (hKnown : ∀ e ∈ entries, ∃ name ∈ fieldNames, e.1 = .str name)
    (hTime : Value.field? entries "timestamp" = some timestamp)
    (hPassed : Value.field? entries "passed" = some passed) :
    ofFields entries = .ok { ofMapping timestamp entries with
      details := (Value.field? entries "details").getD (.dict []) } := by
  have hNamed : (entries.any fun e => e.1.kind ≠ .str) = false := by
    rw [List.any_eq_false]
    intro e he
    obtain ⟨name, -, hKey⟩ := hKnown e he
    simp [hKey, Value.kind]
  have hStrange : entries.findSome? strangeName? = none := by
    rw [List.findSome?_eq_none_iff]
    rintro ⟨key, v⟩ he
    obtain ⟨name, hName, rfl⟩ := hKnown _ he
    simp [strangeName?, hName]
  simp only [ofFields, ofMapping, hNamed, hStrange, hTime, hPassed, Bool.false_eq_true, if_false,
    Option.getD_some]

end Check

namespace Report

/-! ### Findings -/

/-- A finding: its time, and other fields of a check by their names.  The verdict is one of them. -/
structure Addition where
  timestamp : Value
  entries : List (Value × Value)
  named : ∀ e ∈ entries, ∃ name ∈ Check.fieldNames, name ≠ "timestamp" ∧ e.1 = .str name
  judged : (Value.field? entries "passed").isSome = true

/-- The two forms in which a finding is handed to a report. -/
inductive Form
  | mapping
  | ready
  deriving DecidableEq, Repr

namespace Addition

def finding (a : Addition) : Form → Except Failure Finding
  | .mapping => .ok (.fields a.entries)
  | .ready => (Check.ofFields ((.str "timestamp", a.timestamp) :: a.entries)).map .check

def details (a : Addition) : Value := (Value.field? a.entries "details").getD (.dict [])

def check (a : Addition) (form : Form) : Check :=
  { Check.ofMapping a.timestamp a.entries with
    details := match form with
      | .mapping => .dict []
      | .ready => a.details }

theorem ofFields_cons (a : Addition) :
    Check.ofFields ((.str "timestamp", a.timestamp) :: a.entries) = .ok (a.check .ready) := by
  have hKnown : ∀ e ∈ (Value.str "timestamp", a.timestamp) :: a.entries,
      ∃ name ∈ Check.fieldNames, e.1 = .str name := by
    intro e he
    rcases List.mem_cons.1 he with rfl | hRest
    · exact ⟨"timestamp", by decide, rfl⟩
    · obtain ⟨name, hName, -, hKey⟩ := a.named e hRest
      exact ⟨name, hName, hKey⟩
  have hOther : ∀ name : String, name ≠ "timestamp" →
      Value.field? ((.str "timestamp", a.timestamp) :: a.entries) name =
        Value.field? a.entries name := fun _ => field?_cons_of_ne
  obtain ⟨verdict, hVerdict⟩ := Option.isSome_iff_exists.1 a.judged
  have hPassed := (hOther "passed" (by decide)).trans hVerdict
  rw [Check.ofFields_of_known hKnown field?_cons_name hPassed]
  simp only [check, details, Check.ofMapping, hOther "passed" (by decide),
    hOther "description" (by decide), hOther "expected" (by decide), hOther "actual" (by decide),
    hOther "details" (by decide)]

theorem exists_finding (a : Addition) (form : Form) (r : Report) :
    ∃ f, a.finding form = .ok f ∧
      r.add a.timestamp f = { r with checks := r.checks ++ [a.check form] } := by
  cases form with
  | mapping => exact ⟨_, rfl, rfl⟩
  | ready =>
    refine ⟨.check (a.check .ready), ?_, rfl⟩
    rw [finding, a.ofFields_cons]
    rfl

theorem check_agree (a : Addition) (f g : Form) : (a.check f).AgreeButDetails (a.check g) :=
  ⟨rfl, rfl, rfl, rfl, rfl⟩

theorem check_eq_iff (a : Addition) (f g : Form) :
    a.check f = a.check g ↔ f = g ∨ a.details = .dict [] := by
  cases f <;> cases g <;> simp [check, eq_comm]

end Addition

/-! ### Sequences of findings -/

def addEach (r : Report) : List (Addition × Form) → Except Failure Report
  | [] => .ok r
  | (a, form) :: rest =>
    match a.finding form with
    | .error e => .error e
    | .ok f => (r.add a.timestamp f).addEach rest

theorem addEach_eq (r : Report) (xs : List (Addition × Form)) :
    r.addEach xs = .ok { r with checks := r.checks ++ xs.map fun x => x.1.check x.2 } := by
  induction xs generalizing r with
  | nil => rw [addEach, List.map_nil, List.append_nil]
  | cons x rest ih =>
    obtain ⟨a, form⟩ := x
    obtain ⟨f, hFinding, hAdd⟩ := a.exists_finding form r
    simp only [addEach, hFinding, hAdd, ih, List.map_cons, List.append_assoc, List.singleton_append]

theorem passed_iff (r : Report) : r.passed = true ↔ r.failures = [] := by
  simp [passed, failures, List.filter_eq_nil_iff]

theorem failures_agree {r s : Report} (h : List.Forall₂ Check.AgreeButDetails r.checks s.checks) :
    List.Forall₂ Check.AgreeButDetails r.failures s.failures :=
  List.rel_filter (fun _ _ hAgree => by simp only [hAgree.isPassed]) h

theorem passed_agree {r s : Report} (h : List.Forall₂ Check.AgreeButDetails r.checks s.checks) :
    r.passed = s.passed := by
  rw [Bool.eq_iff_iff, passed_iff, passed_iff, ← List.length_eq_zero_iff, ← List.length_eq_zero_iff,
    (failures_agree h).length_eq]

/-- **The two forms agree up to details.**  Whichever forms the findings have in two runs, both come
to an end, with reports that agree in their checks and failures up to details, and in whether they are
passed, which they are if there are no failures.  They are the same report if and only if no details
are given wherever the forms differ. -/
theorem agree_of_forms (r : Report) (xs : List (Addition × Form × Form)) :
    ∃ s t, r.addEach (xs.map fun x => (x.1, x.2.1)) = .ok s ∧
      r.addEach (xs.map fun x => (x.1, x.2.2)) = .ok t ∧
      List.Forall₂ Check.AgreeButDetails s.checks t.checks ∧
      List.Forall₂ Check.AgreeButDetails s.failures t.failures ∧
      s.passed = t.passed ∧ (s.passed = true ↔ s.failures = []) ∧
      (s = t ↔ ∀ x ∈ xs, x.2.1 = x.2.2 ∨ x.1.details = .dict []) := by
  have hChecks : List.Forall₂ Check.AgreeButDetails
      (r.checks ++ xs.map fun x => x.1.check x.2.1) (r.checks ++ xs.map fun x => x.1.check x.2.2) := by
    refine List.rel_append (List.forall₂_same.2 fun c _ => .refl c) ?_
    rw [List.forall₂_map_left_iff, List.forall₂_map_right_iff, List.forall₂_same]
    exact fun x _ => x.1.check_agree x.2.1 x.2.2
  refine ⟨_, _, addEach_eq r _, addEach_eq r _, ?_⟩
  simp only [List.map_map, Function.comp_def]
  refine ⟨hChecks, failures_agree hChecks, passed_agree hChecks, passed_iff _, ?_⟩
  simp only [Report.mk.injEq, true_and, and_true, List.append_cancel_left_eq, List.map_inj_left,
    Addition.check_eq_iff]

def detailed : Addition where
  timestamp := .int 0
  entries := [(.str "passed", .bool true), (.str "details", .dict [(.str "a", .int 1)])]
  named e he := by
    rcases List.mem_pair.1 he with rfl | rfl
    · exact ⟨"passed", by decide, by decide, rfl⟩
    · exact ⟨"details", by decide, by decide, rfl⟩
  judged := by rw [field?_cons_name, Option.isSome_some]

theorem details_detailed : detailed.details = .dict [(.str "a", .int 1)] := by
  rw [Addition.details, detailed, field?_cons_of_ne (by decide), field?_cons_name, Option.getD_some]

/-- The details are left out in one form and kept in the other. -/
theorem details_left_out :
    ∃ s t, (Report.named (.str "")).addEach [(detailed, .mapping)] = .ok s ∧
      (Report.named (.str "")).addEach [(detailed, .ready)] = .ok t ∧
      s.checks.map (·.details) = [.dict []] ∧
      t.checks.map (·.details) = [.dict [(.str "a", .int 1)]] := by
  refine ⟨_, _, addEach_eq _ _, addEach_eq _ _, rfl, ?_⟩
  rw [← details_detailed]
  rfl

end Report

end VirtualLooper
