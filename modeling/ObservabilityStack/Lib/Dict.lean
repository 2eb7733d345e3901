import Mathlib.Data.List.Basic
import Mathlib.Data.List.Nodup
import Mathlib.Data.List.Induction
import Mathlib.Algebra.BigOperators.Group.List.Basic

/-!
# Dictionaries that remember insertion order

A finite map whose keys are listed in the order they were first inserted: assigning to a key
that is present replaces its value *in place*, assigning to a new one appends. The structure
carries the fact that no key occurs twice, so `get?` and membership in `entries` are the same
question (`mem_entries`) and no lemma below has to assume it.

`latest key xs` is the dictionary a scan over `xs` builds with `d[key x] = x`. It is a
last-write-wins table in first-write order, and the two halves of that sentence are
`get?_latest` and `keys_latest_ordered`.

Why not a finite map from the library: the order of the keys is observable. A table is printed, and
a dictionary is dumped, in the order in which the keys were first written, and two dictionaries
with the same bindings in another order print differently. The functions are therefore defined on
the list of entries, and what a reader may ignore about the order is a lemma (`get?_of_perm`).

A structure that is never built wrong needs no lemma that says so. `set` proves that the keys stay
different, and every other result of the module may forget it.
-/

set_option autoImplicit false

namespace ObservabilityStack

/-- Association list with pairwise different keys, oldest key first. -/
structure Dict (α β : Type*) where
  entries : List (α × β)
  nodup : (entries.map Prod.fst).Nodup
  deriving DecidableEq

namespace Dict

variable {α β : Type*} [DecidableEq α]

/-- Assignment on the bare list: in place when the key is there, at the end when it is not. -/
def assign (k : α) (v : β) : List (α × β) → List (α × β)
  | [] => [(k, v)]
  | e :: es => if e.1 = k then (k, v) :: es else e :: assign k v es

theorem keys_assign_of_mem {k : α} {v : β} : ∀ {es : List (α × β)}, k ∈ es.map Prod.fst →
    (assign k v es).map Prod.fst = es.map Prod.fst
  | [], h => absurd h (by simp)
  | e :: es, h => by
    by_cases he : e.1 = k
    · simp [assign, he]
    · have hk : k ∈ es.map Prod.fst := by
        rcases List.mem_cons.mp h with hh | hh
        · exact absurd hh.symm he
        · exact hh
      simp only [assign, he, if_false, List.map_cons, keys_assign_of_mem hk]

theorem assign_of_notMem {k : α} {v : β} : ∀ {es : List (α × β)}, k ∉ es.map Prod.fst →
    assign k v es = es ++ [(k, v)]
  | [], _ => rfl
  | e :: es, h => by
    simp only [List.map_cons, List.mem_cons, not_or] at h
    have he : e.1 ≠ k := fun hh => h.1 hh.symm
    simp only [assign, he, if_false, assign_of_notMem h.2, List.cons_append]

/-- Assignment commutes with a map of the values. -/
theorem assign_map {γ : Type*} (f : β → γ) (k : α) (v : β) : ∀ es : List (α × β),
    assign k (f v) (es.map fun e => (e.1, f e.2)) = (assign k v es).map fun e => (e.1, f e.2)
  | [] => rfl
  | e :: es => by
    by_cases he : e.1 = k
    · simp [assign, he]
    · simp [assign, he, assign_map f k v es]

theorem keys_assign_of_notMem {k : α} {v : β} {es : List (α × β)} (h : k ∉ es.map Prod.fst) :
    (assign k v es).map Prod.fst = es.map Prod.fst ++ [k] := by
  rw [assign_of_notMem h, List.map_append, List.map_singleton]

theorem nodup_assign {k : α} {v : β} {es : List (α × β)} (h : (es.map Prod.fst).Nodup) :
    ((assign k v es).map Prod.fst).Nodup := by
  by_cases hk : k ∈ es.map Prod.fst
  · rw [keys_assign_of_mem hk]; exact h
  · rw [keys_assign_of_notMem hk]
    exact List.nodup_append.mpr ⟨h, by simp, by
      intro a ha b hb hab
      rw [List.mem_singleton.mp hb] at hab
      exact hk (hab ▸ ha)⟩

def empty : Dict α β := ⟨[], List.nodup_nil⟩

/-- `d[k] = v`. -/
def set (d : Dict α β) (k : α) (v : β) : Dict α β :=
  ⟨assign k v d.entries, nodup_assign d.nodup⟩

/-- `d.get(k)`. -/
def get? (d : Dict α β) (k : α) : Option β :=
  (d.entries.find? fun e => e.1 = k).map Prod.snd

/-- `d.get(k, default)`. -/
def getD (d : Dict α β) (k : α) (default : β) : β := (d.get? k).getD default

def keys (d : Dict α β) : List α := d.entries.map Prod.fst

def values (d : Dict α β) : List β := d.entries.map Prod.snd

@[simp] theorem get?_empty (k : α) : (empty : Dict α β).get? k = none := rfl

theorem find?_assign {k k' : α} {v : β} : ∀ es : List (α × β),
    ((assign k v es).find? fun e => e.1 = k').map Prod.snd =
      if k' = k then some v else (es.find? fun e => e.1 = k').map Prod.snd
  | [] => by
    by_cases hk : k' = k
    · simp [assign, hk]
    · simp [assign, hk, Ne.symm hk]
  | e :: es => by
    by_cases he : e.1 = k
    · by_cases hk : k' = k
      · simp [assign, he, hk]
      · have hek : e.1 ≠ k' := fun hh => hk (hh.symm.trans he)
        simp [assign, he, hk, Ne.symm hk]
    · simp only [assign, he, if_false]
      by_cases hek : e.1 = k'
      · have hk : k' ≠ k := fun hh => he (hek.trans hh)
        simp [hek, hk]
      · simp only [List.find?_cons, hek, decide_false]
        exact find?_assign es

/-- **A read after a write.** -/
@[simp] theorem get?_set (d : Dict α β) (k k' : α) (v : β) :
    (d.set k v).get? k' = if k' = k then some v else d.get? k' :=
  find?_assign d.entries

@[simp] theorem getD_set (d : Dict α β) (k k' : α) (v default : β) :
    (d.set k v).getD k' default = if k' = k then v else d.getD k' default := by
  unfold getD
  rw [get?_set]
  by_cases hk : k' = k <;> simp [hk]

/-- Membership of a pair is the same as its key reading back its value. -/
theorem mem_entries {d : Dict α β} {k : α} {v : β} :
    (k, v) ∈ d.entries ↔ d.get? k = some v := by
  obtain ⟨es, hnd⟩ := d
  simp only [get?]
  induction es with
  | nil => simp
  | cons e es ih =>
    simp only [List.map_cons, List.nodup_cons] at hnd
    obtain ⟨k', v'⟩ := e
    by_cases hk : k' = k
    · subst hk
      have hnot : (k', v) ∉ es := fun hm => hnd.1 (List.mem_map.mpr ⟨_, hm, rfl⟩)
      simp [hnot, eq_comm]
    · simp only [List.mem_cons, Prod.mk.injEq, List.find?_cons, hk, decide_false]
      rw [← ih hnd.2]
      constructor
      · rintro (⟨hh, -⟩ | hm)
        · exact absurd hh.symm hk
        · exact hm
      · exact Or.inr

/-- The order of the entries is not visible to a read. -/
theorem get?_of_perm {d d' : Dict α β} (h : d.entries.Perm d'.entries) (k : α) :
    d.get? k = d'.get? k := by
  apply Option.ext
  intro v
  rw [← mem_entries, ← mem_entries, h.mem_iff]

/-- A key that is present splits the entries around it. -/
theorem exists_split {d : Dict α β} {k : α} {v : β} (h : d.get? k = some v) :
    ∃ before after, d.entries = before ++ (k, v) :: after ∧
      (∀ e ∈ before, e.1 ≠ k) ∧ ∀ e ∈ after, e.1 ≠ k := by
  obtain ⟨before, after, hsplit⟩ := List.append_of_mem (mem_entries.mpr h)
  have hnodup := d.nodup
  rw [hsplit, List.map_append, List.map_cons, List.nodup_append, List.nodup_cons] at hnodup
  obtain ⟨_, ⟨hafter, _⟩, hdisjoint⟩ := hnodup
  refine ⟨before, after, hsplit, ?_, ?_⟩
  · intro e he
    exact hdisjoint e.1 (List.mem_map_of_mem he) k (by simp)
  · intro e he hk
    exact hafter (List.mem_map.mpr ⟨e, he, hk⟩)

theorem mem_values {d : Dict α β} {v : β} : v ∈ d.values ↔ ∃ k, d.get? k = some v := by
  unfold values
  constructor
  · intro h
    obtain ⟨⟨k, w⟩, hm, rfl⟩ := List.mem_map.mp h
    exact ⟨k, mem_entries.mp hm⟩
  · rintro ⟨k, hk⟩
    exact List.mem_map.mpr ⟨(k, v), mem_entries.mpr hk, rfl⟩

theorem mem_keys {d : Dict α β} {k : α} : k ∈ d.keys ↔ (d.get? k).isSome := by
  unfold keys
  constructor
  · intro h
    obtain ⟨⟨k', v⟩, hm, rfl⟩ := List.mem_map.mp h
    rw [mem_entries.mp hm]; rfl
  · intro h
    obtain ⟨v, hv⟩ := Option.isSome_iff_exists.mp h
    exact List.mem_map.mpr ⟨(k, v), mem_entries.mpr hv, rfl⟩

theorem keys_set (d : Dict α β) (k : α) (v : β) :
    (d.set k v).keys = if k ∈ d.keys then d.keys else d.keys ++ [k] := by
  by_cases hk : k ∈ d.keys
  · rw [if_pos hk]; exact keys_assign_of_mem hk
  · rw [if_neg hk]; exact keys_assign_of_notMem hk

/-! ## Sums over the values

Counters are often kept in a dictionary, one a label. A write then changes one summand, and the sum
changes by the difference. The sums are over the keys some predicate holds of, because what is
counted may be a class of labels. -/

section Sum

variable {M : Type*} [AddCommMonoid M]

/-- The sum of the values at the keys `p` holds of. -/
def sumWhere (p : α → Bool) (d : Dict α M) : M :=
  ((d.entries.filter fun e => p e.1).map Prod.snd).sum

theorem sum_assign (p : α → Bool) {k : α} {v : M} :
    ∀ {es : List (α × M)}, (es.map Prod.fst).Nodup →
      (((assign k v es).filter fun e => p e.1).map Prod.snd).sum +
          (if p k then ((es.find? fun e => e.1 = k).map Prod.snd).getD 0 else 0) =
        ((es.filter fun e => p e.1).map Prod.snd).sum + (if p k then v else 0)
  | [], _ => by cases hp : p k <;> simp [assign, hp]
  | e :: es, h => by
    simp only [List.map_cons, List.nodup_cons] at h
    by_cases he : e.1 = k
    · subst he
      simp only [assign, if_true, List.find?_cons, decide_true, Option.map_some, Option.getD_some]
      cases hp : p e.1 with
      | true =>
        simp only [List.filter_cons, hp, if_true, List.map_cons, List.sum_cons]
        rw [add_comm v, add_assoc, add_comm v, ← add_assoc, add_comm _ e.2]
      | false => simp [hp]
    · simp only [assign, he, if_false, List.find?_cons, decide_false]
      cases hp : p e.1 with
      | true =>
        simp only [List.filter_cons, hp, if_true, List.map_cons, List.sum_cons]
        rw [add_assoc, sum_assign p h.2, add_assoc]
      | false =>
        simp only [List.filter_cons, hp, Bool.false_eq_true, if_false]
        exact sum_assign p h.2

/-- Writing `v` at a key changes the sum by the difference to what was there, if it counts. -/
theorem sumWhere_set (p : α → Bool) (d : Dict α M) (k : α) (v : M) :
    (d.set k v).sumWhere p + (if p k then d.getD k 0 else 0) =
      d.sumWhere p + (if p k then v else 0) :=
  sum_assign p d.nodup

omit [DecidableEq α] in
theorem sum_values (d : Dict α M) : d.values.sum = d.sumWhere fun _ => true := by
  simp [values, sumWhere]

theorem sum_values_set (d : Dict α M) (k : α) (v : M) :
    (d.set k v).values.sum + d.getD k 0 = d.values.sum + v := by
  rw [sum_values, sum_values]
  exact d.sumWhere_set (fun _ => true) k v

end Sum

/-! ## The table a scan builds

The fold `latest` is a specification as much as a function: what a scan of a list leaves in a
dictionary is determined by the last element of each key, and the order of the dictionary by the
first. -/

section Latest

variable {γ : Type*} (key : γ → α)

/-- `d[key x] = x` for every `x`, in order. -/
def latest (xs : List γ) : Dict α γ :=
  xs.foldl (fun d x => d.set (key x) x) empty

theorem latest_append_singleton (xs : List γ) (x : γ) :
    latest key (xs ++ [x]) = (latest key xs).set (key x) x := by
  simp [latest, List.foldl_append]

/-- Last write wins: a key reads back the last element that carries it. -/
theorem get?_latest (xs : List γ) (k : α) :
    (latest key xs).get? k = (xs.filter fun x => key x = k).getLast? := by
  induction xs using List.reverseRecOn with
  | nil => rfl
  | append_singleton xs x ih =>
    rw [latest_append_singleton, get?_set, List.filter_append]
    by_cases hk : k = key x
    · simp [hk]
    · simp [hk, Ne.symm hk, ih]

theorem mem_keys_latest {xs : List γ} {k : α} : k ∈ (latest key xs).keys ↔ k ∈ xs.map key := by
  rw [mem_keys, get?_latest, List.getLast?_isSome, ne_eq, List.filter_eq_nil_iff]
  simp

/-- …in first-write order: the keys stand in the order of their first occurrences. -/
theorem keys_latest_ordered (xs : List γ) :
    (latest key xs).keys.Pairwise fun a b => (xs.map key).idxOf a < (xs.map key).idxOf b := by
  induction xs using List.reverseRecOn with
  | nil => exact List.Pairwise.nil
  | append_singleton xs x ih =>
    -- Positions of keys already present do not move when `xs` grows at the end.
    have hstable : ∀ {k : α}, k ∈ (latest key xs).keys →
        ((xs ++ [x]).map key).idxOf k = (xs.map key).idxOf k := by
      intro k hk
      rw [List.map_append, List.idxOf_append_of_mem ((mem_keys_latest key).mp hk)]
    have hold : (latest key xs).keys.Pairwise
        fun a b => ((xs ++ [x]).map key).idxOf a < ((xs ++ [x]).map key).idxOf b := by
      refine List.Pairwise.imp_of_mem ?_ ih
      intro a b ha hb hab
      rwa [hstable ha, hstable hb]
    rw [latest_append_singleton, keys_set]
    split
    · exact hold
    · rename_i hnew
      refine List.pairwise_append.mpr ⟨hold, List.pairwise_singleton _ _, ?_⟩
      intro a ha b hb
      rw [List.mem_singleton.mp hb, hstable ha]
      have hlt : (xs.map key).idxOf a < (xs.map key).length :=
        List.idxOf_lt_length_of_mem ((mem_keys_latest key).mp ha)
      have hx : key x ∉ xs.map key := fun hm => hnew ((mem_keys_latest key).mpr hm)
      rw [List.map_append, List.idxOf_append_of_notMem hx]
      omega

end Latest

end Dict
end ObservabilityStack
