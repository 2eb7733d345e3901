import Mathlib.Data.List.Basic
import Mathlib.Logic.Relation

/-!
# Step functions, runs, and invariants of runs

A concurrent component is presented by one function: `next s a` is what the action `a` does
in the state `s`, and `none` when `a` is not enabled there. Everything an environment may
choose (which thread moves, what a clock shows, what a remote call answers) is data of the
action, so a *run* is a list of actions and nothing else is hidden.

`Steps next ok s as s'` says that performing `as` in order leads from `s` to `s'`, and that
every action met the side condition `ok` in the state it was taken in. The condition is what
restricts a theorem to the runs in which, say, no call failed; `Anywhere` is the condition
that asks for nothing. The constructor adds an action at the *end*, because an invariant is
proved by looking at the last step.

Three things are deliberately not here. There is no fairness: a run may leave a thread standing,
and a property that needs it to move says how far it has to move. There are no infinite runs: what
holds in every state of every finite run is what safety is about, and that a run comes to an end is
said by a measure. And there is no nondeterminism in `next`, since whatever is not determined by
the state is put into the action; two runs with the same actions are the same run.

`exec` is the same notion, evaluated. A witness or a counterexample is a list of actions that
`exec` accepts, and `steps_of_exec` makes a run of it, so that examples need no proof of their own.
-/

set_option autoImplicit false

namespace ObservabilityStack
namespace Transition

variable {σ α : Type*}

/-- No side condition: every enabled action may be taken. -/
def Anywhere (_ : σ) (_ : α) : Prop := True

/-- `as` leads from `s` to the last argument, each action meeting `ok` where it is taken. -/
inductive Steps (next : σ → α → Option σ) (ok : σ → α → Prop) (s : σ) : List α → σ → Prop
  | refl : Steps next ok s [] s
  | snoc {as : List α} {s₁ s₂ : σ} {a : α} :
      Steps next ok s as s₁ → ok s₁ a → next s₁ a = some s₂ → Steps next ok s (as ++ [a]) s₂

/-- The state `as` leads to, when it is a run at all. -/
def exec (next : σ → α → Option σ) : σ → List α → Option σ
  | s, [] => some s
  | s, a :: as => (next s a).bind fun s' => exec next s' as

namespace Steps

variable {next : σ → α → Option σ} {ok ok' : σ → α → Prop} {s s' s'' : σ} {as bs : List α}

theorem trans (h : Steps next ok s as s') (h' : Steps next ok s' bs s'') :
    Steps next ok s (as ++ bs) s'' := by
  induction h' with
  | refl => simpa using h
  | snoc _ hok hn ih =>
    rw [← List.append_assoc]
    exact .snoc ih hok hn

theorem single {a : α} (hok : ok s a) (hn : next s a = some s') : Steps next ok s [a] s' :=
  .snoc .refl hok hn

theorem last {a : α} (h : Steps next ok s (as ++ [a]) s') :
    ∃ s₁, Steps next ok s as s₁ ∧ ok s₁ a ∧ next s₁ a = some s' := by
  generalize hcs : as ++ [a] = cs at h
  cases h with
  | refl => simp at hcs
  | snoc hrun hok hn =>
    obtain ⟨rfl, hlast⟩ := List.append_inj' hcs rfl
    cases hlast
    exact ⟨_, hrun, hok, hn⟩

/-- A run of two lists passes through a state between them. -/
theorem split (h : Steps next ok s (as ++ bs) s') :
    ∃ s₁, Steps next ok s as s₁ ∧ Steps next ok s₁ bs s' := by
  induction bs generalizing as with
  | nil => exact ⟨s', by simpa using h, .refl⟩
  | cons b bs ih =>
    rw [List.append_cons] at h
    obtain ⟨s₂, hrun, hrest⟩ := ih h
    obtain ⟨s₁, hfirst, hok, hn⟩ := hrun.last
    exact ⟨s₁, hfirst, (single hok hn).trans hrest⟩

theorem weaken (himp : ∀ s a, ok s a → ok' s a) (h : Steps next ok s as s') :
    Steps next ok' s as s' := by
  induction h with
  | refl => exact .refl
  | snoc _ hok hn ih => exact .snoc ih (himp _ _ hok) hn

theorem anywhere (h : Steps next ok s as s') : Steps next Anywhere s as s' :=
  h.weaken fun _ _ _ => trivial

/-- **The invariant rule.** What holds at the start, and is kept by every step that meets the
    side condition, holds wherever such a run leads. -/
theorem invariant {I : σ → Prop} (h : Steps next ok s as s') (h₀ : I s)
    (hstep : ∀ s a s', I s → ok s a → next s a = some s' → I s') : I s' := by
  induction h with
  | refl => exact h₀
  | snoc _ hok hn ih => exact hstep _ _ _ ih hok hn

/-- The invariant rule for a property that also reads the actions taken so far. -/
theorem invariant_trace {I : List α → σ → Prop} (h : Steps next ok s as s') (h₀ : I [] s)
    (hstep : ∀ as s a s', I as s → ok s a → next s a = some s' → I (as ++ [a]) s') :
    I as s' := by
  induction h with
  | refl => exact h₀
  | snoc _ hok hn ih => exact hstep _ _ _ _ ih hok hn

/-- A measure that every step from an `I`-state decreases is zero somewhere along a run that
    can always be continued; stated as the existence of that run. -/
theorem exists_minimal {I : σ → Prop} (μ : σ → ℕ) (h₀ : I s)
    (hmove : ∀ s, I s → μ s ≠ 0 →
      ∃ a s', ok s a ∧ next s a = some s' ∧ I s' ∧ μ s' < μ s) :
    ∃ as s', Steps next ok s as s' ∧ I s' ∧ μ s' = 0 := by
  induction hμ : μ s using Nat.strongRecOn generalizing s with
  | ind n ih =>
    by_cases hz : μ s = 0
    · exact ⟨[], s, .refl, h₀, hz⟩
    · obtain ⟨a, s₁, hok, hn, hI, hlt⟩ := hmove s h₀ hz
      obtain ⟨as, s₂, hrun, hI₂, hz₂⟩ := ih (μ s₁) (hμ ▸ hlt) hI rfl
      exact ⟨[a] ++ as, s₂, (single hok hn).trans hrun, hI₂, hz₂⟩

/-- **The simulation rule.** When every step from an `I`-state is a run of a second system between
    the abstractions of its ends, so is every run. -/
theorem simulate {τ β : Type*} {next' : τ → β → Option τ} {ok' : τ → β → Prop} {I : σ → Prop}
    (abs : σ → τ) (h : Steps next ok s as s') (h₀ : I s)
    (hstep : ∀ s a s', I s → ok s a → next s a = some s' →
      I s' ∧ ∃ bs, Steps next' ok' (abs s) bs (abs s')) :
    I s' ∧ ∃ bs, Steps next' ok' (abs s) bs (abs s') := by
  induction h with
  | refl => exact ⟨h₀, [], .refl⟩
  | snoc _ hok hn ih =>
    obtain ⟨hI, bs, hrun⟩ := ih
    obtain ⟨hI', cs, hlast⟩ := hstep _ _ _ hI hok hn
    exact ⟨hI', bs ++ cs, hrun.trans hlast⟩

end Steps

/-- Evaluating a list of actions gives the run it denotes. -/
theorem steps_of_exec {next : σ → α → Option σ} {s s' : σ} {as : List α}
    (h : exec next s as = some s') : Steps next Anywhere s as s' := by
  induction as generalizing s with
  | nil =>
    simp only [exec, Option.some.injEq] at h
    subst h
    exact .refl
  | cons a as ih =>
    simp only [exec, Option.bind_eq_some_iff] at h
    obtain ⟨s₁, hn, hrest⟩ := h
    have first : Steps next Anywhere s [a] s₁ := .single trivial hn
    exact first.trans (ih hrest)

/-- `exec`, where every action must also meet the side condition. -/
def execIf (next : σ → α → Option σ) (ok : σ → α → Prop) [∀ s a, Decidable (ok s a)] :
    σ → List α → Option σ
  | s, [] => some s
  | s, a :: as => if ok s a then (next s a).bind fun s' => execIf next ok s' as else none

theorem steps_of_execIf {next : σ → α → Option σ} {ok : σ → α → Prop}
    [∀ s a, Decidable (ok s a)] {s s' : σ} {as : List α} (h : execIf next ok s as = some s') :
    Steps next ok s as s' := by
  induction as generalizing s with
  | nil =>
    simp only [execIf, Option.some.injEq] at h
    subst h
    exact .refl
  | cons a as ih =>
    simp only [execIf] at h
    split at h
    · obtain ⟨s₁, hn, hrest⟩ := Option.bind_eq_some_iff.mp h
      have first : Steps next ok s [a] s₁ := .single ‹_› hn
      exact first.trans (ih hrest)
    · cases h

end Transition
end ObservabilityStack
