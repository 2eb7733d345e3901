import Mathlib.Algebra.Order.BigOperators.Group.List
import Mathlib.Algebra.Order.Field.Basic
import Mathlib.Algebra.Order.Floor.Semiring
import Mathlib.Data.List.NodupEquivFin
import Mathlib.Order.Monotone.Basic
import Mathlib.Tactic.Linarith
import Mathlib.Tactic.Ring

/-!
# A loop with absolute deadlines

A turn of the loop that begins at `time` and should be followed `gap` later moves the deadline
`d` to `max (d + gap) time`. A deadline is computed from the one before it, so a turn that is
late does not delay those after it (`deadline_eq_sum`); and it is never in the past, so a turn
that is very late does not pull those after it together (`Turns.spaced`). Whether the loop keeps
its deadlines is not said: what is asked of a turn is the parameter `ok` of `Turns`.

The two properties pull in different directions, and the maximum is what reconciles them. Without
it (`d + gap` alone) a turn that was delayed for an hour would be followed by an hour's worth of
turns at once; with the time of the turn alone (`time + gap`) every delay would be handed on to all
turns that follow. With the maximum of the two a delay shorter than the gap is made up for, and a
longer one is written off.

What happens within a turn is not described, and the gap may be another one in every turn, so a
loop whose rate changes is covered.
-/

set_option autoImplicit false

namespace ObservabilityStack
namespace Pacer

variable {K : Type*} [Field K] [LinearOrder K]

structure Turn (K : Type*) where
  time : K
  gap : K

/-- The deadline after a turn. -/
def Turn.next (t : Turn K) (d : K) : K := max (d + t.gap) t.time

/-- The deadline after these turns. -/
def deadline (d : K) (ts : List (Turn K)) : K := ts.foldl (fun d t => t.next d) d

/-- Each of the turns is as `ok` says in relation to its deadline; the first deadline is `d`. -/
def Turns (ok : K → Turn K → Prop) : K → List (Turn K) → Prop
  | _, [] => True
  | d, t :: ts => ok d t ∧ Turns ok (t.next d) ts

/-- The turn does not begin before it is due. -/
def Waits (d : K) (t : Turn K) : Prop := d ≤ t.time

/-- Nor is it late by more than the gap. -/
def Punctual (d : K) (t : Turn K) : Prop := d ≤ t.time ∧ t.time ≤ d + t.gap

variable {ok : K → Turn K → Prop} {d gap : K} {ts us : List (Turn K)} {t u : Turn K}

theorem deadline_append : deadline d (ts ++ us) = deadline (deadline d ts) us :=
  List.foldl_append

theorem turns_append : Turns ok d (ts ++ us) ↔ Turns ok d ts ∧ Turns ok (deadline d ts) us := by
  induction ts generalizing d with
  | nil => simp [Turns, deadline]
  | cons t ts ih =>
    simp only [List.cons_append, Turns, ih, and_assoc]
    rfl

theorem turns_snoc : Turns ok d (ts ++ [t]) ↔ Turns ok d ts ∧ ok (deadline d ts) t := by
  simp [turns_append, Turns]

theorem Turns.weaken {ok' : K → Turn K → Prop} (himp : ∀ d t, ok d t → ok' d t)
    (h : Turns ok d ts) : Turns ok' d ts := by
  induction ts generalizing d with
  | nil => trivial
  | cons t ts ih => exact ⟨himp _ _ h.1, ih h.2⟩

/-- **Lateness cancels.** -/
theorem deadline_eq_sum [IsStrictOrderedRing K] (h : Turns Punctual d ts) :
    deadline d ts = d + (ts.map Turn.gap).sum := by
  induction ts generalizing d with
  | nil => simp [deadline]
  | cons t ts ih =>
    obtain ⟨⟨-, hlate⟩, hrest⟩ := h
    show deadline (t.next d) ts = _
    rw [ih hrest, Turn.next, max_eq_left hlate, List.map_cons, List.sum_cons, add_assoc]

/-- With equal gaps, the deadlines are a gap apart. -/
theorem deadline_eq [IsStrictOrderedRing K] (h : Turns Punctual d ts)
    (hgap : ∀ t ∈ ts, t.gap = gap) : deadline d ts = d + ts.length * gap := by
  have hmap : ts.map Turn.gap = List.replicate ts.length gap := by
    rw [List.eq_replicate_iff]
    simpa using hgap
  rw [deadline_eq_sum h, hmap, List.sum_replicate, nsmul_eq_mul]

/-! ## Turns are spaced

The lower bound on the distance of two turns is by induction on the turns between them, with the
deadline as what is carried along: it grows by the gap in every turn, and a turn does not begin
before it. -/

section spaced

/-- Of two times, the later is later by the gaps between them, up to one. -/
def Spaced (gap : K) (xs : List K) : Prop :=
  ∀ (j k : ℕ) (x y : K), j < k → xs[j]? = some x → xs[k]? = some y → ((k : K) - j - 1) * gap ≤ y - x

variable [IsStrictOrderedRing K]

theorem add_le_deadline (hgap : ∀ t ∈ ts, gap ≤ t.gap) :
    d + ts.length * gap ≤ deadline d ts := by
  induction ts generalizing d with
  | nil => simp [deadline]
  | cons t ts ih =>
    have ht : gap ≤ t.gap := hgap t List.mem_cons_self
    have hnext : d + t.gap ≤ t.next d := le_max_left _ _
    have hrest := ih (d := t.next d) fun t ht => hgap t (List.mem_cons_of_mem _ ht)
    show _ ≤ deadline (t.next d) ts
    rw [List.length_cons]
    push_cast
    linarith

/-- The turn after `ts` begins when all their gaps have passed, or later. -/
theorem Turns.add_le_time (h : Turns Waits d (ts ++ t :: us)) (hgap : ∀ t ∈ ts, gap ≤ t.gap) :
    d + ts.length * gap ≤ t.time :=
  (add_le_deadline hgap).trans (turns_append.mp h).2.1

/-- So does the turn after `t` and `ts`, counted from the beginning of `t`. -/
theorem Turns.time_add_le (h : Turns Waits d (t :: ts ++ u :: us))
    (hgap : ∀ t ∈ ts, gap ≤ t.gap) : t.time + ts.length * gap ≤ u.time := by
  have hnext : t.time ≤ t.next d := le_max_right _ _
  have hrest := Turns.add_le_time h.2 hgap
  linarith

theorem exists_append_of_getElem? {α : Type*} {xs : List α} {x : α} {k : ℕ}
    (h : xs[k]? = some x) : ∃ before after, xs = before ++ x :: after ∧ before.length = k := by
  obtain ⟨hlt, rfl⟩ := List.getElem?_eq_some_iff.mp h
  refine ⟨xs.take k, xs.drop (k + 1), ?_, List.length_take_of_le hlt.le⟩
  rw [← List.drop_eq_getElem_cons hlt, List.take_append_drop]

theorem Turns.start_add_le (h : Turns Waits d ts) (hgap : ∀ t ∈ ts, gap ≤ t.gap) {k : ℕ}
    (hk : ts[k]? = some t) : d + k * gap ≤ t.time := by
  obtain ⟨before, after, rfl, rfl⟩ := exists_append_of_getElem? hk
  exact h.add_le_time fun t ht => hgap t (List.mem_append_left _ ht)

theorem Turns.spaced (h : Turns Waits d ts) (hgap : ∀ t ∈ ts, gap ≤ t.gap) :
    Spaced gap (ts.map Turn.time) := by
  intro j k x y hjk hj hk
  rw [List.getElem?_map, Option.map_eq_some_iff] at hj hk
  obtain ⟨t, hj, rfl⟩ := hj
  obtain ⟨u, hk, rfl⟩ := hk
  obtain ⟨before, rest, rfl, rfl⟩ := exists_append_of_getElem? hj
  obtain ⟨n, rfl⟩ := Nat.exists_eq_add_of_lt hjk
  rw [add_assoc, List.getElem?_append_right (Nat.le_add_right _ _), Nat.add_sub_cancel_left,
    List.getElem?_cons_succ] at hk
  obtain ⟨between, after, rfl, rfl⟩ := exists_append_of_getElem? hk
  have hfar := Turns.time_add_le (turns_append.mp h).2 fun t ht => hgap t (by simp [ht])
  push_cast
  linarith

/-- With some of the times left out, the others are not closer. -/
theorem Spaced.sublist {xs ys : List K} (h : Spaced gap ys) (hgap : 0 ≤ gap)
    (hsub : xs.Sublist ys) : Spaced gap xs := by
  obtain ⟨f, hf⟩ := List.sublist_iff_exists_orderEmbedding_getElem?_eq.mp hsub
  intro j k x y hjk hj hk
  have hfar : k - j + f j ≤ f k := by
    have hadd := f.strictMono.add_le_nat (k - j) j
    rwa [Nat.sub_add_cancel hjk.le] at hadd
  have hcast : (k : K) - j ≤ f k - f j := by
    have hle : (((k - j + f j : ℕ)) : K) ≤ f k := Nat.cast_le.mpr hfar
    rw [Nat.cast_add, Nat.cast_sub hjk.le] at hle
    linarith
  calc ((k : K) - j - 1) * gap ≤ ((f k : K) - f j - 1) * gap := by
        apply mul_le_mul_of_nonneg_right _ hgap
        linarith
    _ ≤ y - x := h (f j) (f k) x y (f.strictMono hjk) (hf j ▸ hj) (hf k ▸ hk)

/-- **No burst**: a window of length `w` has room for two turns more than for gaps. -/
theorem Spaced.countP_le [FloorSemiring K] {xs : List K} (h : Spaced gap xs) (hgap : 0 < gap)
    (a w : K) : xs.countP (fun x => a ≤ x ∧ x ≤ a + w) ≤ ⌊w / gap⌋₊ + 2 := by
  rw [List.countP_eq_length_filter]
  have hin := h.sublist hgap.le (List.filter_sublist (l := xs) (p := fun x => a ≤ x ∧ x ≤ a + w))
  have hwindow : ∀ x ∈ xs.filter fun x => a ≤ x ∧ x ≤ a + w, a ≤ x ∧ x ≤ a + w := by
    intro x hx
    simpa using (List.mem_filter.mp hx).2
  generalize xs.filter (fun x => a ≤ x ∧ x ≤ a + w) = ys at hin hwindow ⊢
  by_contra hmany
  rw [not_le] at hmany
  have hlast : ys.length - 1 < ys.length := by omega
  have hfirst : 0 < ys.length := by omega
  have hspan := hin 0 (ys.length - 1) ys[0] ys[ys.length - 1] (by omega)
    (List.getElem?_eq_getElem hfirst) (List.getElem?_eq_getElem hlast)
  have hlow := (hwindow _ (List.getElem_mem hfirst)).1
  have hhigh := (hwindow _ (List.getElem_mem hlast)).2
  have hroom : ys.length - 2 ≤ ⌊w / gap⌋₊ := by
    apply Nat.le_floor
    rw [le_div_iff₀ hgap]
    rw [Nat.cast_sub (by omega), Nat.cast_zero, Nat.cast_one] at hspan
    rw [Nat.cast_sub (by omega), Nat.cast_ofNat]
    linarith
  omega

end spaced

end Pacer
end ObservabilityStack
