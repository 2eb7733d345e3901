import ObservabilityStack.AlertSink.Model
import ObservabilityStack.Lib.Dict
import ObservabilityStack.Lib.Window

/-!
# `alert_sink/store.py`: bounded in-memory history of received notifications

The store is a ring buffer, `deque(maxlen=capacity)`, of the most recent alerts, oldest first.
A value of `AlertStore` cannot hold more than its capacity, and its capacity is positive.

Every method body runs under the lock or on a snapshot taken under it, so a method is one
step and the store is a value passed from call to call.

What the store is for is said over the *history*: the concatenation of everything `add_all`
was ever given. `AlertStore.Holds s history` is the refinement relation between the two, and
each read below is characterised by the history alone.

The choice of the history as the abstract state is what makes the reads simple to state. What the
ring buffer shows depends on how many alerts came after one, and on nothing else; so eviction needs
no notion of its own, and two sequences of batches with the same alerts give the same answers.

The lock is left out on purpose. That a batch goes in whole although it is appended alert by alert
is proved where there are threads.
-/

set_option autoImplicit false

namespace ObservabilityStack
namespace AlertSink

/-- `DEFAULT_CAPACITY`, the capacity when none is given. -/
def defaultCapacity : ℕ := 500

/-- `AlertStore`: a bounded history. `deque(maxlen=...)` drops the oldest alert when it is full,
    so the length never exceeds the capacity. -/
structure AlertStore where
  capacity : ℕ
  items : List ReceivedAlert
  capacity_pos : 0 < capacity
  length_le : items.length ≤ capacity

namespace AlertStore

/-- `__init__`. -/
def new (capacity : ℤ) : Except String AlertStore :=
  if h : capacity ≤ 0 then .error "capacity must be positive"
  else .ok ⟨capacity.toNat, [], by omega, Nat.zero_le _⟩

/-- `self._items.append(alert)` -/
def append (s : AlertStore) (alert : ReceivedAlert) : AlertStore where
  capacity := s.capacity
  items := Window.push s.capacity s.items alert
  capacity_pos := s.capacity_pos
  length_le := Window.length_push alert s.capacity_pos s.length_le

/-- `add_all`: the store afterwards, and the number of alerts added. -/
def addAll (s : AlertStore) (alerts : List ReceivedAlert) : AlertStore × ℕ :=
  alerts.foldl (fun r alert => (r.1.append alert, r.2 + 1)) (s, 0)

/-- `list(reversed(self._items))`, what `recent()` returns without a limit. -/
def newestFirst (s : AlertStore) : List ReceivedAlert := s.items.reverse

/-- `recent(limit)`. -/
def recent (s : AlertStore) : Option ℤ → Except String (List ReceivedAlert)
  | none => .ok s.newestFirst
  | some limit =>
      if limit < 0 then .error "limit must not be negative"
      else .ok (s.newestFirst.take limit.toNat)

/-- `alert.fingerprint or f"{alert.alertname}/{alert.instance}"` -/
def key (alert : ReceivedAlert) : String :=
  if alert.fingerprint = "" then alert.alertname ++ "/" ++ alert.instance_ else alert.fingerprint

/-- `firing()`: the latest state of every key, keeping what is still firing. -/
def firing (s : AlertStore) : List ReceivedAlert :=
  (Dict.latest key s.newestFirst.reverse).values.filter fun alert => alert.status = "firing"

/-- `__len__`. -/
def len (s : AlertStore) : ℕ := s.items.length

/-! ## The store holds the window of its history

One append, then one batch, then any sequence of batches, each by the rule of `Window` for that. -/

/-- `s` is what a store of its capacity shows of `history`. -/
def Holds (s : AlertStore) (history : List ReceivedAlert) : Prop :=
  s.items = Window.window s.capacity history

theorem holds_items (s : AlertStore) : s.Holds s.items :=
  (Window.window_eq_self s.length_le).symm

theorem addAll_eq (s : AlertStore) (alerts : List ReceivedAlert) :
    s.addAll alerts = (alerts.foldl append s, alerts.length) := by
  have hfold : ∀ (s : AlertStore) (n : ℕ),
      alerts.foldl (fun r alert => (r.1.append alert, r.2 + 1)) (s, n) =
        (alerts.foldl append s, n + alerts.length) := by
    induction alerts with
    | nil => intro s n; rfl
    | cons a alerts ih =>
      intro s n
      rw [List.foldl_cons, ih, List.foldl_cons, List.length_cons, Nat.add_right_comm]
      rfl
  unfold addAll
  rw [hfold, Nat.zero_add]

theorem foldl_append (s : AlertStore) (alerts : List ReceivedAlert) :
    (alerts.foldl append s).capacity = s.capacity ∧
      (alerts.foldl append s).items = alerts.foldl (Window.push s.capacity) s.items := by
  induction alerts generalizing s with
  | nil => exact ⟨rfl, rfl⟩
  | cons a alerts ih => exact ih (s.append a)

@[simp] theorem capacity_addAll (s : AlertStore) (alerts : List ReceivedAlert) :
    (s.addAll alerts).1.capacity = s.capacity := by
  rw [addAll_eq]
  exact (foldl_append s alerts).1

/-- One batch appends to the history, whatever its size. -/
theorem Holds.addAll {s : AlertStore} {history : List ReceivedAlert} (h : s.Holds history)
    (alerts : List ReceivedAlert) : (s.addAll alerts).1.Holds (history ++ alerts) := by
  unfold Holds
  rw [capacity_addAll, addAll_eq]
  show (alerts.foldl append s).items = _
  rw [(foldl_append s alerts).2, h, Window.foldl_push _ _ _ s.capacity_pos]

theorem new_holds {c : ℕ} (hc : 1 ≤ c) :
    ∃ s, new c = .ok s ∧ s.capacity = c ∧ s.Holds [] := by
  refine ⟨⟨c, [], hc, Nat.zero_le _⟩, ?_, rfl, List.drop_nil.symm⟩
  unfold new
  rw [dif_neg (by omega)]
  rfl

/-- Any sequence of batches. -/
theorem Holds.run {s : AlertStore} {history : List ReceivedAlert} (h : s.Holds history)
    (batches : List (List ReceivedAlert)) :
    (batches.foldl (fun s b => (s.addAll b).1) s).Holds (history ++ batches.flatten) ∧
      (batches.foldl (fun s b => (s.addAll b).1) s).capacity = s.capacity := by
  induction batches generalizing s history with
  | nil => simpa using h
  | cons b batches ih =>
    obtain ⟨hheld, hcap⟩ := ih (h.addAll b)
    rw [List.foldl_cons, List.flatten_cons, ← List.append_assoc]
    exact ⟨hheld, by rw [hcap, capacity_addAll]⟩

/-! ## What the reads say about the history

`firing` walks the items from the oldest and lets a later alert of a key take the place of an
earlier one. So it keeps, for each key, the last alert at the position of the first, and both are
visible in its result: which alerts are listed, and in which order. -/

theorem mem_firing {s : AlertStore} {a : ReceivedAlert} :
    a ∈ s.firing ↔ Window.Newest key s.items a ∧ a.status = "firing" := by
  unfold firing newestFirst
  rw [List.reverse_reverse, List.mem_filter, Dict.mem_values, decide_eq_true_eq,
    Window.newest_iff]
  refine and_congr_left fun _ => ?_
  constructor
  · rintro ⟨k, hk⟩
    rw [Dict.get?_latest] at hk
    have hkey : key a = k := by simpa using (List.mem_filter.mp (List.mem_of_getLast? hk)).2
    rwa [← hkey] at hk
  · intro h
    exact ⟨key a, (Dict.get?_latest key _ _).trans h⟩

/-- An alert is listed as firing when it is the newest of its key in the whole history and has
    not been evicted. -/
theorem Holds.mem_firing {s : AlertStore} {history : List ReceivedAlert} (h : s.Holds history)
    {a : ReceivedAlert} :
    a ∈ s.firing ↔ ∃ older newer, history = older ++ a :: newer ∧
      (∀ b ∈ newer, key b ≠ key a) ∧ a.status = "firing" ∧ newer.length < s.len := by
  rw [AlertStore.mem_firing, len, h, Window.newest_window]
  constructor
  · rintro ⟨⟨older, newer, hxs, hnew, hlen⟩, hst⟩
    exact ⟨older, newer, hxs, hnew, hst, hlen⟩
  · rintro ⟨older, newer, hxs, hnew, hst, hlen⟩
    exact ⟨⟨older, newer, hxs, hnew, hlen⟩, hst⟩

/-- The listing keeps the keys in the order of their first occurrence, each once. -/
theorem firing_keys_ordered (s : AlertStore) :
    (s.firing.map key).Pairwise
      fun k k' => (s.items.map key).idxOf k < (s.items.map key).idxOf k' := by
  unfold firing newestFirst
  rw [List.reverse_reverse]
  have hkeys : (Dict.latest key s.items).values.map key = (Dict.latest key s.items).keys := by
    unfold Dict.values Dict.keys
    rw [List.map_map]
    refine List.map_congr_left fun e he => ?_
    have hget := Dict.mem_entries.mp (show (e.1, e.2) ∈ _ from he)
    rw [Dict.get?_latest] at hget
    simpa using (List.mem_filter.mp (List.mem_of_getLast? hget)).2
  refine List.Pairwise.sublist (List.Sublist.map key List.filter_sublist) ?_
  rw [hkeys]
  exact Dict.keys_latest_ordered key s.items

/-- **The bounded store refines the unbounded history.** -/
theorem store_refines_history {c : ℕ} (hc : 1 ≤ c) (batches : List (List ReceivedAlert)) :
    let history := batches.flatten
    let recentPart := history.drop (history.length - c)
    ∃ s₀, new c = .ok s₀ ∧
      let s := batches.foldl (fun s b => (s.addAll b).1) s₀
      recentPart.length = min c history.length ∧
      s.len = recentPart.length ∧
      s.recent none = .ok recentPart.reverse ∧
      (∀ l : ℕ, s.recent (some l) = .ok (recentPart.reverse.take l)) ∧
      (∀ a, a ∈ s.firing ↔ ∃ older newer, history = older ++ a :: newer ∧
        (∀ b ∈ newer, key b ≠ key a) ∧ a.status = "firing" ∧
        newer.length < recentPart.length) ∧
      (s.firing.map key).Nodup ∧
      (s.firing.map key).Pairwise fun k k' =>
        (recentPart.map key).idxOf k < (recentPart.map key).idxOf k' := by
  intro history recentPart
  obtain ⟨s₀, hnew, hcap, hempty⟩ := new_holds hc
  refine ⟨s₀, hnew, ?_⟩
  intro s
  obtain ⟨hheld, hcap'⟩ := hempty.run batches
  have hheld : s.Holds history := hheld
  have hitems : s.items = recentPart := by
    show s.items = Window.window c history
    rw [hheld, show s.capacity = c from hcap'.trans hcap]
  -- The order of `firing()` is that of the first arrival of each key among the kept alerts.
  have hordered := s.firing_keys_ordered
  rw [hitems] at hordered
  refine ⟨Window.length_window c history, congrArg List.length hitems, ?_, ?_, ?_, ?_, hordered⟩
  · show Except.ok s.items.reverse = _
    rw [hitems]
  · intro l
    -- `recent` refuses a negative limit, and a length is not one.
    have hl : ¬ ((l : ℤ) < 0) := by omega
    unfold recent newestFirst
    rw [hitems]
    simp only [hl, if_false, Int.toNat_natCast]
  · intro a
    rw [hheld.mem_firing, len, hitems]
  · -- The positions increase strictly, so no key comes twice.
    refine hordered.imp ?_
    intro k k' hlt heq
    rw [heq] at hlt
    exact lt_irrefl _ hlt

/-- Three alerts in one batch, in a store of two: the oldest is gone. -/
theorem store_refines_history_evicting :
    let disk : ReceivedAlert :=
      ⟨"pager", "firing", "DiskSpaceLow", "warning", "node", "n1", "", "", "", "f1"⟩
    let probe : ReceivedAlert := { disk with alertname := "ProbeFailed", fingerprint := "f2" }
    let down : ReceivedAlert := { disk with alertname := "TargetDown", fingerprint := "f3" }
    ∃ s₀, new (2 : ℕ) = .ok s₀ ∧ (s₀.addAll [disk, probe, down]).1.len = 2 ∧
      (s₀.addAll [disk, probe, down]).1.recent none = .ok [down, probe] ∧
      ((s₀.addAll [disk, probe, down]).1.firing.map key).Nodup := by
  intro disk probe down
  obtain ⟨s₀, hnew, -, hlen, hrecent, -, -, hnodup, -⟩ :=
    store_refines_history (show 1 ≤ 2 by decide) [[disk, probe, down]]
  exact ⟨s₀, hnew, hlen, hrecent, hnodup⟩

end AlertStore
end AlertSink
end ObservabilityStack
