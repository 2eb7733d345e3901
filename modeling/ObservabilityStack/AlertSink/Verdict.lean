import ObservabilityStack.AlertSink.Table

/-!
# `main` of `check-alerts`: the verdict

`main` prints `render(rows)` and then the problems. That nothing is firing is read off the rows,
and a source adds none when it lists no alert, but also when it fails and when its answer has
another shape. So the verdict is an all-clear that may be false; it is printed exactly when no
source lists an alert and none escapes (`printsVerdict_iff`).

The statement is an equivalence so that it shows all the ways in which the verdict is right: it is
not printed, because `main` did not get that far or because there was something to print, or it is
printed and true. The remaining case is a source that could not be read, or answered with something
else than a list, while the others list nothing.
-/

set_option autoImplicit false

namespace ObservabilityStack
namespace AlertSink

open Python (Json)

/-- The parsed arguments, with their defaults. -/
structure Args where
  prometheus : String := "http://localhost:9090"
  alertmanager : String := "http://localhost:9093"
  sink : String := "http://localhost:9095"
  deriving DecidableEq, Repr

/-- What is printed, and the exit code. -/
structure Printed where
  stdout : String
  stderr : List String
  exitCode : ℕ
  deriving DecidableEq, Repr

/-- The line that says that nothing fires anywhere. -/
def verdict : String := "nothing is firing anywhere - the stack is quiet"

def Behaviours.endpoint (b : Behaviours) : Kind → Endpoint
  | .prometheus => b.prometheus
  | .alertmanager => b.alertmanager
  | .sink => b.sink

/-- No row but the empty list of them prints as the verdict. -/
theorem render_eq_verdict_iff {rows : List AlertRow} : render rows = verdict ↔ rows = [] := by
  constructor
  · intro h
    by_contra hne
    have hheader : header.toList.head? = some 'S' := by decide
    have hverdict : verdict.toList.head? = some 'n' := by decide
    unfold render at h
    rw [if_neg hne, String.ext_iff, String.toList_intercalate] at h
    have hhead := congrArg List.head? h
    rw [List.map_cons, List.map_cons, List.intercalate_cons_cons, List.append_assoc,
      List.head?_append, hheader, hverdict] at hhead
    exact absurd hhead (by simp)
  · intro h
    rw [h]
    rfl

section Main

variable [Unicode] (loads : List UInt8 → Except LoadsError Json)

/-- `main`, after the arguments. -/
def main (args : Args) (b : Behaviours) : Except FetchError Printed := do
  let (rows, problems) ← collect loads args.prometheus args.alertmanager args.sink b
  return {
    stdout := render rows ++ "\n"
    stderr := problems.map fun problem => s!"warning: {problem}"
    exitCode := if problems = [] then 0 else 1 }

def PrintsVerdict (args : Args) (b : Behaviours) : Prop :=
  ∃ printed, main loads args b = .ok printed ∧ printed.stdout = verdict ++ "\n"

/-- The source was read, and its answer is a list of alerts without an entry. -/
def ListsNothing (kind : Kind) (endpoint : Endpoint) : Prop :=
  ∃ payload, Answers loads endpoint payload ∧ kind.alertList payload = some []

/-- The source was read, and there is an alert among the entries of its list. -/
def ListsAlert (kind : Kind) (endpoint : Endpoint) : Prop :=
  ∃ payload alerts, Answers loads endpoint payload ∧ kind.alertList payload = some alerts ∧
    objects alerts ≠ []

variable {loads}

omit [Unicode] in
/-- A body is read in one way. -/
theorem Answers.unique {endpoint : Endpoint} {payload payload' : Json}
    (h : Answers loads endpoint payload) (h' : Answers loads endpoint payload') :
    payload = payload' := by
  obtain ⟨body, rfl, hloads⟩ := h
  obtain ⟨body', hbody, hloads'⟩ := h'
  cases hbody
  exact Except.ok.inj (hloads.symm.trans hloads')

/-- A source contributes no row when it lists no alert, for whatever reason. -/
theorem Contributes.rows_eq_nil_iff {kind : Kind} {endpoint : Endpoint} {rows : List AlertRow}
    {problems : List String} (h : Contributes loads kind endpoint rows problems) :
    rows = [] ↔ ¬ ListsAlert loads kind endpoint := by
  cases h with
  | alerts payload entries hbody hlist =>
    rw [List.map_eq_nil_iff]
    constructor
    · intro hnil hlists
      obtain ⟨payload', alerts, hbody', hlist', hsome⟩ := hlists
      cases hbody.unique hbody'
      cases hlist.symm.trans hlist'
      exact hsome hnil
    · intro hnot
      by_contra hsome
      exact hnot ⟨payload, entries, hbody, hlist, hsome⟩
  | unexpected payload hbody hlist =>
    refine iff_of_true rfl ?_
    intro hlists
    obtain ⟨payload', alerts, hbody', hlist', -⟩ := hlists
    cases hbody.unique hbody'
    cases hlist.symm.trans hlist'
  | problem message hbody =>
    refine iff_of_true rfl ?_
    intro hlists
    obtain ⟨payload, _, hbody', -⟩ := hlists
    exact hbody payload hbody'

omit [Unicode] in
theorem forall_kind {p : Kind → Prop} :
    (∀ kind, p kind) ↔ p .prometheus ∧ p .alertmanager ∧ p .sink := by
  constructor
  · intro h
    exact ⟨h _, h _, h _⟩
  · intro h kind
    cases kind with
    | prometheus => exact h.1
    | alertmanager => exact h.2.1
    | sink => exact h.2.2

/-- **The verdict is printed when `main` gets that far and no source lists an alert.** -/
theorem printsVerdict_iff (args : Args) (b : Behaviours) :
    PrintsVerdict loads args b ↔
      (∀ kind, ¬ Escapes loads (b.endpoint kind)) ∧
        ∀ kind, ¬ ListsAlert loads kind (b.endpoint kind) := by
  -- When nothing escapes, the rows are those of the three sources.
  have hrows : (∀ kind, ¬ Escapes loads (b.endpoint kind)) → ∃ rows problems,
      collect loads args.prometheus args.alertmanager args.sink b = .ok (rows, problems) ∧
      (rows = [] ↔ ∀ kind, ¬ ListsAlert loads kind (b.endpoint kind)) := by
    intro hesc
    obtain ⟨rows₁, rows₂, rows₃, problems₁, problems₂, problems₃, hcollect, h₁, h₂, h₃⟩ :=
      degrades_of_not_escapes args.prometheus args.alertmanager args.sink (hesc .prometheus)
        (hesc .alertmanager) (hesc .sink)
    refine ⟨_, _, hcollect, ?_⟩
    rw [forall_kind, List.append_eq_nil_iff, List.append_eq_nil_iff, h₁.rows_eq_nil_iff,
      h₂.rows_eq_nil_iff, h₃.rows_eq_nil_iff, and_assoc]
    rfl
  have hprints : ∀ rows, render rows ++ "\n" = verdict ++ "\n" ↔ rows = [] := by
    intro rows
    rw [← render_eq_verdict_iff, String.append_left_inj]
  constructor
  · intro h
    obtain ⟨printed, hmain, hout⟩ := h
    have hesc : ∀ kind, ¬ Escapes loads (b.endpoint kind) := by
      unfold main at hmain
      cases hcollect : collect loads args.prometheus args.alertmanager args.sink b with
      | error error => rw [hcollect] at hmain; cases hmain
      | ok r => exact forall_kind.mpr (not_escapes_of_collect hcollect)
    obtain ⟨rows, problems, hcollect, hnil⟩ := hrows hesc
    refine ⟨hesc, hnil.mp ?_⟩
    unfold main at hmain
    rw [hcollect] at hmain
    cases hmain
    exact (hprints rows).mp hout
  · intro h
    obtain ⟨rows, problems, hcollect, hnil⟩ := hrows h.1
    refine ⟨_, by unfold main; rw [hcollect]; rfl, ?_⟩
    exact (hprints rows).mpr (hnil.mpr h.2)

/-- **The all-clear is true exactly when a source escapes, or one lists an alert, or all three
    list nothing.** -/
theorem all_clear_iff (loads : List UInt8 → Except LoadsError Json) (args : Args)
    (b : Behaviours) :
    (PrintsVerdict loads args b → ∀ kind, ListsNothing loads kind (b.endpoint kind)) ↔
      (∃ kind, Escapes loads (b.endpoint kind)) ∨
      (∃ kind, ListsAlert loads kind (b.endpoint kind)) ∨
      ∀ kind, ListsNothing loads kind (b.endpoint kind) := by
  rw [printsVerdict_iff, ← not_exists, ← not_exists]
  tauto

end Main

/-- None of the three can be reached. -/
def unreachable : Behaviours where
  prometheus := .unreachable "<urlopen error [Errno 111] Connection refused>"
  alertmanager := .unreachable "<urlopen error [Errno 111] Connection refused>"
  sink := .unreachable "<urlopen error [Errno 111] Connection refused>"

theorem all_clear_of_unreachable : ¬ ∀ (loads : List UInt8 → Except LoadsError Json) (args : Args)
    (b : Behaviours), @PrintsVerdict Python.latin1 loads args b →
      ∀ kind, ListsNothing loads kind (b.endpoint kind) := by
  intro h
  have hprints : @PrintsVerdict Python.latin1 (fun _ => .ok .null) {} unreachable := ⟨_, rfl, rfl⟩
  obtain ⟨payload, hans, -⟩ := h (fun _ => .ok .null) {} unreachable hprints .prometheus
  obtain ⟨body, hbody, -⟩ := hans
  cases hbody

end AlertSink
end ObservabilityStack
