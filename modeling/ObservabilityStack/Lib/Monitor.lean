import ObservabilityStack.Lib.Threads
import ObservabilityStack.Lib.Transition
import Mathlib.Data.List.Nodup

/-!
# Critical sections under one lock

Threads share a state and a lock. A thread takes the lock, changes the state in steps, reads a
result off it and releases the lock; other threads come, wait and go meanwhile. However they
interleave, the sections might have run one after the other, whole, in the order in which the lock
was taken: the state is the one they leave so, and every result is the one they read so.

This is the part of linearizability that needs no specification of the operations. A section is a
list of updates and a read, given once and for all when the thread comes, so it cannot depend on
what other threads do; that is what makes the serial execution a function of the order alone
(`serial`). The invariant `Linear` relates the state to that execution at every moment, also while
a section is half done: the state is then the serial one of the sections before, with the updates
that are done performed on it.

A system whose threads do more than that, before and after the section, refines this one by
forgetting it. `Transition.Steps.simulate` is the rule to prove it with: a step outside of the
section is no step here.

Nothing is assumed about fairness. That the threads come to an end is not said, and has to be
counted by the system that uses the monitor.
-/

set_option autoImplicit false

namespace ObservabilityStack
namespace Monitor

open Transition

/-- What a thread does while it holds the lock: the updates, in order, and what it reads of the
    state at the end. -/
structure Critical (σ ρ : Type*) where
  updates : List (σ → σ)
  result : σ → ρ

/-- A thread before, in and after its critical section. -/
inductive Phase (σ ρ : Type*)
  | outside
  | inside (rest : List (σ → σ))
  | left (result : ρ)

/-- The state the lock protects, who holds the lock, and the threads. -/
structure State (σ ρ : Type*) where
  shared : σ
  holder : Option ℕ
  /-- the threads in the order in which they took the lock -/
  order : List ℕ
  threads : List (Critical σ ρ × Phase σ ρ)

/-- A new thread, or a step of one that is there. -/
inductive Action (σ ρ : Type*)
  | spawn (c : Critical σ ρ)
  | acquire (i : ℕ)
  | update (i : ℕ)
  | release (i : ℕ)

variable {σ ρ : Type*}

def State.init (s₀ : σ) : State σ ρ := ⟨s₀, none, [], []⟩

/-- Updates are made by the thread inside, and the result is read as the lock is given back. -/
def next (m : State σ ρ) : Action σ ρ → Option (State σ ρ)
  | .spawn c => some { m with threads := m.threads ++ [(c, .outside)] }
  | .acquire i =>
      match m.threads[i]?, m.holder with
      | some (c, .outside), none =>
          some { m with
            holder := some i
            order := m.order ++ [i]
            threads := m.threads.set i (c, .inside c.updates) }
      | _, _ => none
  | .update i =>
      match m.threads[i]? with
      | some (c, .inside (f :: rest)) =>
          some { m with shared := f m.shared, threads := m.threads.set i (c, .inside rest) }
      | _ => none
  | .release i =>
      match m.threads[i]? with
      | some (c, .inside []) =>
          some { m with
            holder := none
            threads := m.threads.set i (c, .left (c.result m.shared)) }
      | _ => none

section Taken

variable {m : State σ ρ} {i : ℕ} {c : Critical σ ρ}

theorem next_acquire (hi : m.threads[i]? = some (c, .outside)) (hfree : m.holder = none) :
    next m (.acquire i) = some { m with
      holder := some i
      order := m.order ++ [i]
      threads := m.threads.set i (c, .inside c.updates) } := by
  simp only [next, hi, hfree]

theorem next_update {f : σ → σ} {rest : List (σ → σ)}
    (hi : m.threads[i]? = some (c, .inside (f :: rest))) :
    next m (.update i) = some { m with
      shared := f m.shared
      threads := m.threads.set i (c, .inside rest) } := by
  simp only [next, hi]

theorem next_release (hi : m.threads[i]? = some (c, .inside [])) :
    next m (.release i) = some { m with
      holder := none
      threads := m.threads.set i (c, .left (c.result m.shared)) } := by
  simp only [next, hi]

end Taken

/-- The updates of a section, run without a break. -/
def perform (updates : List (σ → σ)) (s : σ) : σ := updates.foldl (fun s f => f s) s

/-- The sections of the threads in that order, each run without a break. -/
def serial (s₀ : σ) (threads : List (Critical σ ρ × Phase σ ρ)) (order : List ℕ) : σ :=
  order.foldl
    (fun s i => match threads[i]? with | some (c, _) => perform c.updates s | none => s) s₀

/-! ## Steps

The inversion of `next`, stated for the states alone: which action it was is not needed again. -/

inductive Stepped (m : State σ ρ) : State σ ρ → Prop
  | spawn (c : Critical σ ρ) : Stepped m { m with threads := m.threads ++ [(c, .outside)] }
  | acquire (i : ℕ) (c : Critical σ ρ) (hi : m.threads[i]? = some (c, .outside))
      (hfree : m.holder = none) : Stepped m { m with
        holder := some i
        order := m.order ++ [i]
        threads := m.threads.set i (c, .inside c.updates) }
  | update (i : ℕ) (c : Critical σ ρ) (f : σ → σ) (rest : List (σ → σ))
      (hi : m.threads[i]? = some (c, .inside (f :: rest))) : Stepped m { m with
        shared := f m.shared
        threads := m.threads.set i (c, .inside rest) }
  | release (i : ℕ) (c : Critical σ ρ) (hi : m.threads[i]? = some (c, .inside [])) :
      Stepped m { m with
        holder := none
        threads := m.threads.set i (c, .left (c.result m.shared)) }

theorem next_cases {m m' : State σ ρ} {a : Action σ ρ} (h : next m a = some m') :
    Stepped m m' := by
  cases a with
  | spawn c =>
    cases h
    exact .spawn c
  | acquire i =>
    simp only [next] at h
    split at h <;> cases h
    exact .acquire i _ ‹_› ‹_›
  | update i =>
    simp only [next] at h
    split at h <;> cases h
    exact .update i _ _ _ ‹_›
  | release i =>
    simp only [next] at h
    split at h <;> cases h
    exact .release i _ ‹_›

/-! ## The serial order

The order is part of the state and grows with every thread that takes the lock. It is a ghost: no
thread reads it. -/

theorem perform_append (fs gs : List (σ → σ)) (s : σ) :
    perform (fs ++ gs) s = perform gs (perform fs s) := List.foldl_append

theorem serial_snoc (s₀ : σ) {threads : List (Critical σ ρ × Phase σ ρ)} {order : List ℕ} {i : ℕ}
    {c : Critical σ ρ} {p : Phase σ ρ} (hi : threads[i]? = some (c, p)) :
    serial s₀ threads (order ++ [i]) = perform c.updates (serial s₀ threads order) := by
  unfold serial
  rw [List.foldl_append, List.foldl_cons, List.foldl_nil, hi]

/-- The serial state depends on the sections, and on nothing the threads have done. -/
theorem serial_congr (s₀ : σ) {threads threads' : List (Critical σ ρ × Phase σ ρ)}
    {order : List ℕ}
    (h : ∀ i ∈ order, (threads'[i]?).map Prod.fst = (threads[i]?).map Prod.fst) :
    serial s₀ threads' order = serial s₀ threads order := by
  unfold serial
  induction order generalizing s₀ with
  | nil => rfl
  | cons i order ih =>
    have hi := h i List.mem_cons_self
    have hhead : (match threads'[i]? with | some (c, _) => perform c.updates s₀ | none => s₀) =
        (match threads[i]? with | some (c, _) => perform c.updates s₀ | none => s₀) := by
      cases ht : threads[i]? with
      | none =>
        rw [ht, Option.map_none, Option.map_eq_none_iff] at hi
        rw [hi]
      | some e =>
        rw [ht, Option.map_some, Option.map_eq_some_iff] at hi
        obtain ⟨e', he', heq⟩ := hi
        rw [he']
        show perform e'.1.updates s₀ = perform e.1.updates s₀
        rw [heq]
    rw [List.foldl_cons, List.foldl_cons, hhead]
    exact ih _ fun j hj => h j (List.mem_cons_of_mem i hj)

theorem serial_set (s₀ : σ) {threads : List (Critical σ ρ × Phase σ ρ)} {i : ℕ}
    {c : Critical σ ρ} {p q : Phase σ ρ} (hi : threads[i]? = some (c, p)) (order : List ℕ) :
    serial s₀ (threads.set i (c, q)) order = serial s₀ threads order := by
  refine serial_congr s₀ fun j _ => ?_
  rw [Threads.getElem?_set hi]
  split
  · rename_i hji
    rw [hji, hi]
    rfl
  · rfl

/-- What holds between the state and the order in which the lock was taken. -/
structure Linear (s₀ : σ) (m : State σ ρ) : Prop where
  once : m.order.Nodup
  bound : ∀ i ∈ m.order, i < m.threads.length
  /-- A thread that has not had the lock is not in the order. -/
  outside : ∀ i c, m.threads[i]? = some (c, .outside) → i ∉ m.order
  /-- Only the holder is inside. -/
  inside : ∀ i c rest, m.threads[i]? = some (c, .inside rest) → m.holder = some i
  /-- What a thread has read is what it would have read after those before it. -/
  left : ∀ i c r, m.threads[i]? = some (c, .left r) → ∃ before after,
    m.order = before ++ i :: after ∧
      r = c.result (perform c.updates (serial s₀ m.threads before))
  /-- With the lock free, the shared state is that of the serial run… -/
  free : m.holder = none → m.shared = serial s₀ m.threads m.order
  /-- …and otherwise the holder is the last of it, somewhere in its section. -/
  held : ∀ i, m.holder = some i → ∃ before c done rest, m.order = before ++ [i] ∧
    m.threads[i]? = some (c, .inside rest) ∧ c.updates = done ++ rest ∧
      m.shared = perform done (serial s₀ m.threads before)

theorem linear_init (s₀ : σ) : Linear s₀ (State.init s₀ : State σ ρ) where
  once := List.nodup_nil
  bound _ h := nomatch h
  outside _ _ h := nomatch h
  inside _ _ _ h := nomatch h
  left _ _ _ h := nomatch h
  free _ := rfl
  held _ h := nomatch h

/-- A thread that comes has taken no lock. -/
theorem Linear.spawn {s₀ : σ} {m : State σ ρ} (hm : Linear s₀ m) (c : Critical σ ρ) :
    Linear s₀ { m with threads := m.threads ++ [(c, .outside)] } := by
  have hold : ∀ {i : ℕ} {e : Critical σ ρ × Phase σ ρ}, m.threads[i]? = some e →
      (m.threads ++ [(c, .outside)])[i]? = some e := by
    intro i e hi
    rw [List.getElem?_append_left (List.getElem?_eq_some_iff.mp hi).1, hi]
  have hserial : ∀ before : List ℕ, (∀ i ∈ before, i < m.threads.length) →
      serial s₀ (m.threads ++ [(c, .outside)]) before = serial s₀ m.threads before := by
    intro before hbefore
    refine serial_congr s₀ fun i hi => ?_
    rw [List.getElem?_append_left (hbefore i hi)]
  -- The new thread is outside and in no order, so every clause is the old one or vacuous for it.
  refine ⟨hm.once, ?_, ?_, ?_, ?_, ?_, ?_⟩
  · intro i hi
    rw [List.length_append]
    exact Nat.lt_add_right _ (hm.bound i hi)
  · intro i c' hi hmem
    rcases Threads.getElem?_snoc hi with hi | ⟨rfl, -⟩
    · exact hm.outside i c' hi hmem
    · exact Nat.lt_irrefl _ (hm.bound _ hmem)
  · intro i c' rest hi
    rcases Threads.getElem?_snoc hi with hi | ⟨-, hnew⟩
    · exact hm.inside i c' rest hi
    · cases hnew
  · intro i c' r hi
    rcases Threads.getElem?_snoc hi with hi | ⟨-, hnew⟩
    · obtain ⟨before, after, horder, hr⟩ := hm.left i c' r hi
      refine ⟨before, after, horder, ?_⟩
      rw [hserial before fun j hj => hm.bound j (horder ▸ List.mem_append_left _ hj)]
      exact hr
    · cases hnew
  · intro hfree
    rw [hserial m.order hm.bound]
    exact hm.free hfree
  · intro i hheld
    obtain ⟨before, c', done, rest, horder, hi, hupdates, hshared⟩ := hm.held i hheld
    refine ⟨before, c', done, rest, horder, hold hi, hupdates, ?_⟩
    rw [hserial before fun j hj => hm.bound j (horder ▸ List.mem_append_left _ hj)]
    exact hshared

/-- A thread that goes on keeps its section, and the others are as they were. -/
theorem Linear.moved {s₀ : σ} {m : State σ ρ} (hm : Linear s₀ m) {i : ℕ} {c : Critical σ ρ}
    {p q : Phase σ ρ} (hi : m.threads[i]? = some (c, p)) {j : ℕ} {c' : Critical σ ρ} {r : ρ}
    (hj : (m.threads.set i (c, q))[j]? = some (c', .left r)) (hne : j ≠ i) :
    ∃ before after, m.order = before ++ j :: after ∧
      r = c'.result (perform c'.updates (serial s₀ (m.threads.set i (c, q)) before)) := by
  rw [Threads.getElem?_set hi, if_neg hne] at hj
  obtain ⟨before, after, horder, hr⟩ := hm.left j c' r hj
  exact ⟨before, after, horder, by rw [serial_set s₀ hi]; exact hr⟩

/-- A thread that takes the lock comes next in the order, and has done nothing yet. -/
theorem Linear.acquire {s₀ : σ} {m : State σ ρ} (hm : Linear s₀ m) {i : ℕ} {c : Critical σ ρ}
    (hi : m.threads[i]? = some (c, .outside)) (hfree : m.holder = none) :
    Linear s₀ { m with
      holder := some i, threads := m.threads.set i (c, .inside c.updates),
      order := m.order ++ [i] } := by
  have hnew := hm.outside i c hi
  have hlt := (List.getElem?_eq_some_iff.mp hi).1
  refine ⟨?_, ?_, ?_, ?_, ?_, (fun h => nomatch h), ?_⟩
  · rw [List.nodup_append]
    refine ⟨hm.once, List.nodup_singleton i, ?_⟩
    intro j hj k hk
    rw [List.mem_singleton.mp hk]
    exact fun heq => hnew (heq ▸ hj)
  · intro j hj
    rw [List.length_set]
    rcases List.mem_append.mp hj with hj | hj
    · exact hm.bound j hj
    · exact (List.mem_singleton.mp hj) ▸ hlt
  · intro j c' hj hmem
    rw [Threads.getElem?_set hi] at hj
    split at hj
    · cases hj
    · rename_i hne
      rcases List.mem_append.mp hmem with hmem | hmem
      · exact hm.outside j c' hj hmem
      · exact hne (List.mem_singleton.mp hmem)
  · intro j c' rest hj
    rw [Threads.getElem?_set hi] at hj
    split at hj
    · rename_i heq
      rw [heq]
    · exact nomatch hfree.symm.trans (hm.inside j c' rest hj)
  · intro j c' r hj
    have hne : j ≠ i := by
      rintro rfl
      rw [Threads.getElem?_set hi, if_pos rfl] at hj
      cases hj
    -- A thread that has left keeps what it saw: the order only grows behind it.
    obtain ⟨before, after, horder, hr⟩ := hm.moved hi hj hne
    exact ⟨before, after ++ [i], by rw [horder, List.append_assoc, List.cons_append], hr⟩
  · intro j hheld
    cases hheld
    -- The holder starts from what the threads before it leave, with all its updates to do.
    refine ⟨m.order, c, [], c.updates, rfl, ?_, rfl, ?_⟩
    · rw [Threads.getElem?_set hi, if_pos rfl]
    · rw [serial_set s₀ hi]
      exact hm.free hfree

/-- The thread that holds the lock makes the next of its updates. -/
theorem Linear.update {s₀ : σ} {m : State σ ρ} (hm : Linear s₀ m) {i : ℕ} {c : Critical σ ρ}
    {f : σ → σ} {rest : List (σ → σ)} (hi : m.threads[i]? = some (c, .inside (f :: rest))) :
    Linear s₀ { m with
      shared := f m.shared, threads := m.threads.set i (c, .inside rest) } := by
  have hheld := hm.inside i c _ hi
  have hlt := (List.getElem?_eq_some_iff.mp hi).1
  refine ⟨hm.once, ?_, ?_, ?_, ?_, ?_, ?_⟩
  · intro j hj
    rw [List.length_set]
    exact hm.bound j hj
  · intro j c' hj
    rw [Threads.getElem?_set hi] at hj
    split at hj
    · cases hj
    · exact hm.outside j c' hj
  · intro j c' rest' hj
    rw [Threads.getElem?_set hi] at hj
    split at hj
    · rename_i heq
      exact heq ▸ hheld
    · exact hm.inside j c' rest' hj
  · intro j c' r hj
    have hne : j ≠ i := by
      rintro rfl
      rw [Threads.getElem?_set hi, if_pos rfl] at hj
      cases hj
    exact hm.moved hi hj hne
  · intro hfree
    exact nomatch hfree.symm.trans hheld
  · intro j hj
    -- Only the holder can update, so the shared state is the serial one and its own updates so
    -- far.
    cases hheld.symm.trans hj
    obtain ⟨before, c', done, rest', horder, hi', hupdates, hshared⟩ := hm.held i hheld
    cases hi.symm.trans hi'
    refine ⟨before, c, done ++ [f], rest, horder, ?_, ?_, ?_⟩
    · rw [Threads.getElem?_set hi, if_pos rfl]
    · rw [hupdates, List.append_assoc]
      rfl
    · rw [perform_append, serial_set s₀ hi, ← hshared]
      rfl

/-- All its updates are made, and it lets go of the lock with what it has read. -/
theorem Linear.release {s₀ : σ} {m : State σ ρ} (hm : Linear s₀ m) {i : ℕ} {c : Critical σ ρ}
    (hi : m.threads[i]? = some (c, .inside [])) :
    Linear s₀ { m with
      holder := none, threads := m.threads.set i (c, .left (c.result m.shared)) } := by
  have hheld := hm.inside i c _ hi
  obtain ⟨before, c', done, rest, horder, hi', hupdates, hshared⟩ := hm.held i hheld
  cases hi.symm.trans hi'
  rw [List.append_nil] at hupdates
  refine ⟨hm.once, ?_, ?_, ?_, ?_, ?_, fun _ h => nomatch h⟩
  · intro j hj
    rw [List.length_set]
    exact hm.bound j hj
  · intro j c' hj
    rw [Threads.getElem?_set hi] at hj
    split at hj
    · cases hj
    · exact hm.outside j c' hj
  · intro j c' rest' hj
    rw [Threads.getElem?_set hi] at hj
    split at hj
    · cases hj
    · rename_i hne
      cases hheld.symm.trans (hm.inside j c' rest' hj)
      exact absurd rfl hne
  · intro j c' r hj
    -- What the thread returns is read under the lock, hence of the serial state it leaves.
    by_cases hne : j = i
    · rw [Threads.getElem?_set hi, if_pos hne] at hj
      cases hj
      refine ⟨before, [], by rw [horder, hne], ?_⟩
      rw [serial_set s₀ hi, hupdates, hshared]
    · exact hm.moved hi hj hne
  · intro _
    -- Free again: the thread is now a whole entry of the serial run.
    show m.shared = serial s₀ (m.threads.set i _) m.order
    rw [serial_set s₀ hi, horder, serial_snoc s₀ hi, hupdates, hshared]

theorem Linear.step {s₀ : σ} {m m' : State σ ρ} (hm : Linear s₀ m) (h : Stepped m m') :
    Linear s₀ m' := by
  cases h with
  | spawn c => exact hm.spawn c
  | acquire i c hi hfree => exact hm.acquire hi hfree
  | update i c f rest hi => exact hm.update hi
  | release i c hi => exact hm.release hi

/-- **Sections are serial.** In every state that is reached from a free lock. -/
theorem Linear.of_steps {s₀ : σ} {m : State σ ρ} {as : List (Action σ ρ)}
    (h : Steps next Anywhere (State.init s₀) as m) : Linear s₀ m :=
  h.invariant (linear_init s₀) fun _ _ _ hm _ hn => hm.step (next_cases hn)

theorem takeWhile_before {before after : List ℕ} {i : ℕ} (hi : i ∉ before) :
    (before ++ i :: after).takeWhile (fun j => j ≠ i) = before := by
  rw [List.takeWhile_append_of_pos, List.takeWhile_cons_of_neg (by simp), List.append_nil]
  intro j hj
  exact decide_eq_true fun heq => hi (heq ▸ hj)

/-- What a thread has read is what its section reads after the sections before it. -/
theorem Linear.left_before {s₀ : σ} {m : State σ ρ} (hm : Linear s₀ m) {i : ℕ}
    {c : Critical σ ρ} {r : ρ} (hi : m.threads[i]? = some (c, .left r)) :
    i ∈ m.order ∧ r = c.result (perform c.updates
      (serial s₀ m.threads (m.order.takeWhile fun j => j ≠ i))) := by
  obtain ⟨before, after, horder, hr⟩ := hm.left i c r hi
  have hnotin : i ∉ before := by
    have hnodup : (before ++ i :: after).Nodup := horder ▸ hm.once
    exact fun hmem => (List.nodup_append.mp hnodup).2.2 i hmem i List.mem_cons_self rfl
  rw [horder, takeWhile_before hnotin]
  exact ⟨List.mem_append_right _ List.mem_cons_self, hr⟩

end Monitor
end ObservabilityStack
