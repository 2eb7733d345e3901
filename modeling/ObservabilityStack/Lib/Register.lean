import Mathlib.Data.List.Induction

/-!
# A register that can be reset

A register holds the value of the last event that wrote one, unless an event after it reset
the register. `foldl_update` says so about a whole history at once: what the register shows is
determined by the last event that touched it, and by no other.

A system that holds a value until further notice is described so: by what writes it, what resets
it, and the rule that the last of these counts. Stated over the whole history the rule has no state
in it, and that is the use of it: what is in force at some moment can be read off a log.

Which events write and which reset is given by two functions, and an event may do neither. One that
did both would write; no use of the module has such events.
-/

set_option autoImplicit false

namespace ObservabilityStack
namespace Register

variable {ε α : Type*} (write : ε → Option α) (reset : ε → Bool)

/-- The register after one event. -/
def update (r : Option α) (e : ε) : Option α :=
  if reset e then none
  else
    match write e with
    | some a => some a
    | none => r

/-- `a` was written by an event after which none wrote or reset. -/
def LastWritten (events : List ε) (a : α) : Prop :=
  ∃ before e after, events = before ++ e :: after ∧ reset e = false ∧ write e = some a ∧
    ∀ e' ∈ after, reset e' = false ∧ write e' = none

theorem foldl_update (events : List ε) (a : α) :
    events.foldl (update write reset) none = some a ↔ LastWritten write reset events a := by
  induction events using List.reverseRecOn with
  | nil =>
    constructor
    · intro h
      cases h
    · rintro ⟨before, e, after, heq, -⟩
      simp at heq
  | append_singleton events e ih =>
    rw [List.foldl_append, List.foldl_cons, List.foldl_nil, update]
    constructor
    · intro h
      split at h
      · cases h
      · rename_i hreset
        split at h
        -- The last event wrote the value itself.
        · rename_i b hwrite
          cases h
          exact ⟨events, e, [], rfl, by simpa using hreset, hwrite, by simp⟩
        · rename_i hwrite
          -- It neither wrote nor reset, so the value is the one from before.
          obtain ⟨before, e', after, rfl, hreset', hwrite', hafter⟩ := ih.mp h
          refine ⟨before, e', after ++ [e], by simp, hreset', hwrite', ?_⟩
          intro e'' he''
          rcases List.mem_append.mp he'' with he'' | he''
          · exact hafter e'' he''
          · rw [List.mem_singleton.mp he'']
            exact ⟨by simpa using hreset, hwrite⟩
    · rintro ⟨before, e', after, heq, hreset, hwrite, hafter⟩
      -- The write is the last event, or the last event comes after it and left it alone.
      rcases List.eq_nil_or_concat after with rfl | ⟨after', last, rfl⟩
      · obtain ⟨-, hlast⟩ := List.append_inj' heq rfl
        cases hlast
        rw [hreset, hwrite]
        rfl
      · have heq' : events ++ [e] = (before ++ e' :: after') ++ [last] := by
          simpa using heq
        obtain ⟨rfl, hlast⟩ := List.append_inj' heq' rfl
        cases hlast
        obtain ⟨hkeep, hsilent⟩ := hafter e (by simp)
        rw [hkeep, hsilent]
        refine ih.mpr ⟨before, e', after', rfl, hreset, hwrite, ?_⟩
        intro e'' he''
        exact hafter e'' (by simp [he''])

end Register
end ObservabilityStack
