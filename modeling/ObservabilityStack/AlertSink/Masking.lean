import ObservabilityStack.AlertSink.Grammar
import ObservabilityStack.AlertSink.Store

/-!
# When one alert hides another

`firing()` keeps one alert per *key*. An operator reads it per *alert*, and two alerts are
different when they differ in alert name, job or instance. The key is coarser than that:

* a `null` fingerprint is read as the text `None`, so all alerts that come with one share a key;
* without a fingerprint the key leaves the job out;
* it joins the alert name and the instance with a `/`, which either may contain.

Whenever two alerts share a key the later one replaces the earlier, and if that one is resolved,
a firing alert is gone from the list. Here this is said of what was *sent*, without keys:
`Overtakes` compares two entries of payloads by their fingerprints (null, missing or a text),
alert names and instances, and `key_eq_iff` shows that it is what the keys come to.
`no_alert_masked_iff` then gives the histories in which no alert is hidden.

What Alertmanager is known to do is not assumed. With fingerprints as it sends them, one text for
one label set, nothing is hidden (`everyFiringKept_of_fingerprints`).

The condition is to be exactly that nothing is hidden, so it has to say what happens when
several alerts share a key, and not only that two of them do. A firing alert may be overtaken and
still be listed, if an older report of the same triple is left; and an alert that is overtaken by
one of its own triple is not hidden, but brought up to date.
-/

set_option autoImplicit false

namespace ObservabilityStack
namespace AlertSink

open Python (Json latin1)
open Window (Newest)

/-- What makes two alerts different objects to an operator. -/
def triple (a : ReceivedAlert) : String × String × String := (a.alertname, a.job, a.instance_)

/-- Every triple whose newest alert is firing is listed as firing. -/
def NoneMasked (s : AlertStore) (history : List ReceivedAlert) : Prop :=
  ∀ a, Newest triple history a → a.status = "firing" → ∃ b ∈ s.firing, triple b = triple a

/-! ## What was sent -/

/-- The `fingerprint` of an entry: `null`, absent or empty, or a text. -/
inductive Fingerprint
  | null
  | missing
  | given (text : {s : String // s ≠ ""})
  deriving DecidableEq

/-- What the parser makes of it. -/
def Fingerprint.text : Fingerprint → String
  | .null => "None"
  | .missing => ""
  | .given s => s.1

/-- One entry of `alerts` as it was sent, and as it was parsed. -/
structure Report where
  fingerprint : Fingerprint
  alert : ReceivedAlert
  agrees : alert.fingerprint = fingerprint.text

/-- `later` has the alert name and the instance of `earlier`, with a part that ends in a `/` moved
    from the instance to the name. -/
def SlashMoved (later earlier : ReceivedAlert) : Prop :=
  ∃ part, later.alertname = earlier.alertname ++ "/" ++ part ∧
    earlier.instance_ = part ++ "/" ++ later.instance_

/-- Without fingerprints, these two cannot be told apart. Their jobs may differ. -/
def SameListing (later earlier : ReceivedAlert) : Prop :=
  later.alertname = earlier.alertname ∧ later.instance_ = earlier.instance_ ∨
    SlashMoved later earlier ∨ SlashMoved earlier later

/-- If `later` comes after `earlier`, it takes its place in the listing. -/
def Report.Overtakes (later earlier : Report) : Prop :=
  match later.fingerprint, earlier.fingerprint with
  | .null, .null => True
  | .null, .given s => s.1 = "None"
  | .given s, .null => s.1 = "None"
  | .null, .missing => False
  | .missing, .null => False
  | .missing, .missing => SameListing later.alert earlier.alert
  | .missing, .given s => s.1 = later.alert.alertname ++ "/" ++ later.alert.instance_
  | .given s, .missing => s.1 = earlier.alert.alertname ++ "/" ++ earlier.alert.instance_
  | .given s, .given s' => s = s'

/-- Every firing alert that is the newest of its triple is overtaken by none that came after it,
    or else an older firing alert of the triple is. -/
def EveryFiringKept (history : List Report) : Prop :=
  ∀ older r newer, history = older ++ r :: newer → r.alert.status = "firing" →
    (∀ c ∈ newer, triple c.alert ≠ triple r.alert) →
      (∀ c ∈ newer, ¬ c.Overtakes r) ∨
      ∃ first b between, older = first ++ b :: between ∧ triple b.alert = triple r.alert ∧
        b.alert.status = "firing" ∧ ∀ c ∈ between ++ r :: newer, ¬ c.Overtakes b

/-! ## Overtaking is sharing a key

By the kinds of the two fingerprints. The only case that takes an argument is that of two alerts
without one, whose keys are joined texts: two such texts are equal when a part moves across the
slash, and not only when their parts are. -/

theorem joined_eq_iff (a b : ReceivedAlert) :
    a.alertname ++ "/" ++ a.instance_ = b.alertname ++ "/" ++ b.instance_ ↔ SameListing a b := by
  have htext : "/".toList = ['/'] := rfl
  constructor
  · intro heq
    rw [String.ext_iff] at heq
    simp only [String.toList_append, List.append_assoc, htext, List.singleton_append] at heq
    -- One name begins with the other, and what it has more begins with the `/`.
    rcases List.append_eq_append_iff.mp heq with ⟨more, hname, hinst⟩ | ⟨more, hname, hinst⟩
    · cases more with
      | nil =>
        obtain ⟨-, hinst⟩ := List.cons.inj hinst
        refine Or.inl ⟨String.ext_iff.mpr ?_, String.ext_iff.mpr hinst⟩
        rw [hname, List.append_nil]
      | cons x part =>
        rw [List.cons_append] at hinst
        obtain ⟨rfl, hrest⟩ := List.cons.inj hinst
        refine Or.inr (Or.inr ⟨String.ofList part, String.ext_iff.mpr ?_, String.ext_iff.mpr ?_⟩)
        · simp [hname, htext]
        · simp [hrest, htext]
    · cases more with
      | nil =>
        obtain ⟨-, hinst⟩ := List.cons.inj hinst
        refine Or.inl ⟨String.ext_iff.mpr ?_, String.ext_iff.mpr hinst.symm⟩
        rw [hname, List.append_nil]
      | cons x part =>
        rw [List.cons_append] at hinst
        obtain ⟨rfl, hrest⟩ := List.cons.inj hinst
        refine Or.inr (Or.inl ⟨String.ofList part, String.ext_iff.mpr ?_, String.ext_iff.mpr ?_⟩)
        · simp [hname, htext]
        · simp [hrest, htext]
  · rintro (⟨hname, hinst⟩ | ⟨part, hname, hinst⟩ | ⟨part, hname, hinst⟩)
    · rw [hname, hinst]
    · rw [hname, hinst]
      simp only [String.append_assoc]
    · rw [hname, hinst]
      simp only [String.append_assoc]

/-- The text of a `null` has no `/`. -/
theorem joined_ne_none (a b : String) : a ++ "/" ++ b ≠ "None" := by
  intro heq
  have hmem : '/' ∈ (a ++ "/" ++ b).toList := by simp
  rw [heq] at hmem
  exact absurd hmem (by decide)

theorem key_of_text {r : Report} {s : String} (h : r.fingerprint.text = s) (hs : s ≠ "") :
    AlertStore.key r.alert = s := by
  rw [AlertStore.key, r.agrees, h, if_neg hs]

theorem key_of_missing {r : Report} (h : r.fingerprint = .missing) :
    AlertStore.key r.alert = r.alert.alertname ++ "/" ++ r.alert.instance_ := by
  rw [AlertStore.key, r.agrees, h]
  rfl

/-- **An alert takes the key of another exactly when it overtakes it.** -/
theorem key_eq_iff (c r : Report) :
    AlertStore.key c.alert = AlertStore.key r.alert ↔ c.Overtakes r := by
  have hnone : ∀ {r : Report}, r.fingerprint = .null → AlertStore.key r.alert = "None" :=
    fun h => key_of_text (by rw [h]; rfl) (by decide)
  have hgiven : ∀ {r : Report} {s : {s : String // s ≠ ""}}, r.fingerprint = .given s →
      AlertStore.key r.alert = s.1 := fun {_ s} h => key_of_text (by rw [h]; rfl) s.2
  unfold Report.Overtakes
  cases hc : c.fingerprint with
  | null =>
    rw [hnone hc]
    cases hr : r.fingerprint with
    | null => simp [hnone hr]
    | missing => simpa [key_of_missing hr] using (joined_ne_none _ _).symm
    | given s => simp [hgiven hr, eq_comm]
  | missing =>
    rw [key_of_missing hc]
    cases hr : r.fingerprint with
    | null => simpa [hnone hr] using joined_ne_none _ _
    | missing => simpa [key_of_missing hr] using joined_eq_iff c.alert r.alert
    | given s => simp [hgiven hr, eq_comm]
  | given s =>
    rw [hgiven hc]
    cases hr : r.fingerprint with
    | null => simp [hnone hr]
    | missing => simp [key_of_missing hr]
    | given s' => simp [hgiven hr, Subtype.ext_iff]

/-! ## What the listing keeps

A place in a history is a split of it. Two places of one history are the same, or one is in what
comes before the other, and the proof compares the place of the newest report of a triple with that
of the alert which is listed for it. -/

/-- Of two places in one list, one comes first. -/
theorem places_cases {α : Type*} {first rest older newer : List α} {b r : α}
    (h : first ++ b :: rest = older ++ r :: newer) :
    (∃ between, older = first ++ b :: between ∧ rest = between ++ r :: newer) ∨
      (b = r ∧ rest = newer) ∨ b ∈ newer := by
  rcases List.append_eq_append_iff.mp h with ⟨more, hpast, hrest⟩ | ⟨more, hpast, hrest⟩
  · cases more with
    | nil =>
      obtain ⟨rfl, rfl⟩ := List.cons.inj hrest
      exact Or.inr (Or.inl ⟨rfl, rfl⟩)
    | cons x between =>
      obtain ⟨rfl, rfl⟩ := List.cons.inj hrest
      exact Or.inl ⟨between, hpast, rfl⟩
  · cases more with
    | nil =>
      obtain ⟨rfl, rfl⟩ := List.cons.inj hrest
      exact Or.inr (Or.inl ⟨rfl, rfl⟩)
    | cons x between =>
      obtain ⟨rfl, rfl⟩ := List.cons.inj hrest
      exact Or.inr (Or.inr (by simp))

/-- Nothing that comes later takes the key of a report that nothing overtakes. -/
theorem newest_of_not_overtaken {older newer : List Report} {r : Report}
    (h : ∀ c ∈ newer, ¬ c.Overtakes r) :
    Newest AlertStore.key ((older ++ r :: newer).map Report.alert) r.alert := by
  refine ⟨older.map Report.alert, newer.map Report.alert, by simp, ?_⟩
  intro a ha hkey
  obtain ⟨c, hc, rfl⟩ := List.mem_map.mp ha
  exact h c hc ((key_eq_iff c r).mp hkey)

/-- The place of an alert in the list of what was parsed, in the list of what was sent. -/
theorem exists_place {κ : Type*} {key : ReceivedAlert → κ} {history : List Report}
    {a : ReceivedAlert} (h : Newest key (history.map Report.alert) a) :
    ∃ older r newer, history = older ++ r :: newer ∧ r.alert = a ∧
      ∀ c ∈ newer, key c.alert ≠ key r.alert := by
  obtain ⟨older, newer, hmap, hnew⟩ := h
  obtain ⟨before, rest, rfl, -, hrest⟩ := List.map_eq_append_iff.mp hmap
  obtain ⟨r, after, rfl, rfl, rfl⟩ := List.map_eq_cons_iff.mp hrest
  exact ⟨before, r, after, rfl, rfl, fun c hc => hnew c.alert (List.mem_map_of_mem hc)⟩

/-- A store that shows its whole history masks nothing exactly when every firing alert is kept. -/
theorem noneMasked_iff {s : AlertStore} {history : List Report}
    (h : s.items = history.map Report.alert) :
    NoneMasked s (history.map Report.alert) ↔ EveryFiringKept history := by
  constructor
  · intro hnone older r newer hxs hst hnewest
    -- The hypothesis speaks of alerts, the condition of reports: carry the place over.
    have htriple : Newest triple (history.map Report.alert) r.alert := by
      refine ⟨older.map Report.alert, newer.map Report.alert, by simp [hxs], ?_⟩
      intro a ha
      obtain ⟨c, hc, rfl⟩ := List.mem_map.mp ha
      exact hnewest c hc
    obtain ⟨a, ha, hab⟩ := hnone r.alert htriple hst
    obtain ⟨hkey, hfires⟩ := AlertStore.mem_firing.mp ha
    rw [h] at hkey
    obtain ⟨first, b, rest, hplace, rfl, hfree⟩ := exists_place hkey
    have hnot : ∀ c ∈ rest, ¬ c.Overtakes b := fun c hc hover =>
      hfree c hc ((key_eq_iff c b).mpr hover)
    -- Where the listed report stands relative to the last one of the alert: before it, at it, or
    -- after it, and the last is impossible.
    rcases places_cases (hplace.symm.trans hxs) with ⟨between, hold, rfl⟩ | ⟨rfl, rfl⟩ | hlater
    · exact Or.inr ⟨first, b, between, hold, hab, hfires, hnot⟩
    · exact Or.inl hnot
    · exact absurd hab (hnewest b hlater)
  · intro hkept a hnewest hst
    obtain ⟨older, r, newer, hxs, rfl, hnew⟩ := exists_place hnewest
    -- A firing report that nothing after it overtakes is what `firing()` lists under its key.
    have hlisted : ∀ {first rest : List Report} {b : Report}, history = first ++ b :: rest →
        b.alert.status = "firing" → (∀ c ∈ rest, ¬ c.Overtakes b) → b.alert ∈ s.firing := by
      intro first rest b hplace hfires hnot
      rw [AlertStore.mem_firing, h, hplace]
      exact ⟨newest_of_not_overtaken hnot, hfires⟩
    rcases hkept older r newer hxs hst hnew with hnot | ⟨first, b, between, hold, hab, hfires, hnot⟩
    · exact ⟨r.alert, hlisted hxs hst hnot, rfl⟩
    · have hplace : history = first ++ b :: (between ++ r :: newer) := by
        rw [hxs, hold, List.append_assoc, List.cons_append]
      exact ⟨b.alert, hlisted hplace hfires hnot, hab⟩

/-- With a fingerprint on every alert, and one text for one triple, nothing is hidden. -/
theorem everyFiringKept_of_fingerprints {history : List Report}
    (hgiven : ∀ r ∈ history, ∃ s, r.fingerprint = .given s)
    (hinj : ∀ c ∈ history, ∀ r ∈ history, c.fingerprint = r.fingerprint →
      triple c.alert = triple r.alert) : EveryFiringKept history := by
  intro older r newer hxs _ hnewest
  refine Or.inl ?_
  intro c hc hover
  have hcmem : c ∈ history := by simp [hxs, hc]
  have hrmem : r ∈ history := by simp [hxs]
  obtain ⟨s, hs⟩ := hgiven c hcmem
  obtain ⟨s', hs'⟩ := hgiven r hrmem
  simp only [Report.Overtakes, hs, hs'] at hover
  refine hnewest c hc (hinj c hcmem r hrmem ?_)
  rw [hs, hs', hover]

section Received

variable [Unicode]

/-- `STORE.add_all(parse_notification(payload))` -/
def receive (s : AlertStore) (payload : Json) : Except String AlertStore :=
  (parseNotification payload).map fun alerts => (s.addAll alerts).1

/-- The alerts a sequence of payloads carries. -/
def received (payloads : List Json) : List ReceivedAlert :=
  payloads.flatMap fun payload => (parseNotification payload).toOption.getD []

theorem holds_receive {s s' : AlertStore} {history : List ReceivedAlert} {payloads : List Json}
    (hs : s.Holds history) (h : payloads.foldlM receive s = .ok s') :
    s'.Holds (history ++ received payloads) ∧ s'.capacity = s.capacity := by
  induction payloads generalizing s history with
  | nil =>
    cases h
    simpa [received] using hs
  | cons payload payloads ih =>
    rw [List.foldlM_cons] at h
    cases hp : parseNotification payload with
    | error e => rw [receive, hp] at h; cases h
    | ok alerts =>
      rw [receive, hp] at h
      obtain ⟨hheld, hcap⟩ := ih (hs.addAll alerts) h
      refine ⟨?_, by rw [hcap, AlertStore.capacity_addAll]⟩
      have hcons : received (payload :: payloads) = alerts ++ received payloads := by
        simp [received, hp, Except.toOption]
      rwa [hcons, ← List.append_assoc]

/-- The fingerprint an entry was sent with. -/
def sentFingerprint (entry : Json) : Fingerprint :=
  match member (fields entry) "fingerprint" with
  | none => .missing
  | some .null => .null
  | some value => if h : value.toStr = "" then .missing else .given ⟨value.toStr, h⟩

theorem flattenAlert_fingerprint (receiver : String) (entry : Json) :
    (flattenAlert receiver entry).fingerprint = (sentFingerprint entry).text := by
  show text (fields entry) "fingerprint" "" = _
  unfold text sentFingerprint
  cases member (fields entry) "fingerprint" with
  | none => rfl
  | some value =>
    cases value with
    | null => rfl
    | bool _ | int _ | float _ | str _ | arr _ | obj _ =>
      simp only [Option.map_some, Option.getD_some]
      split
      · assumption
      · rfl

def reportOf (receiver : String) (entry : Json) : Report where
  fingerprint := sentFingerprint entry
  alert := flattenAlert receiver entry
  agrees := flattenAlert_fingerprint receiver entry

/-- What a sequence of payloads reports, entry by entry. -/
def reports (payloads : List Json) : List Report :=
  payloads.flatMap fun payload =>
    (entries payload).map (reportOf (text (fields payload) "receiver" "unknown"))

/-- Payloads that are accepted are parsed to what they report. -/
theorem map_alert_reports {s s' : AlertStore} {payloads : List Json}
    (h : payloads.foldlM receive s = .ok s') :
    (reports payloads).map Report.alert = received payloads := by
  induction payloads generalizing s with
  | nil => rfl
  | cons payload payloads ih =>
    rw [List.foldlM_cons] at h
    rcases parseNotification_eq payload with ⟨-, hok⟩ | ⟨-, message, herr⟩
    · rw [receive, hok] at h
      have hhead : ((entries payload).map
          (reportOf (text (fields payload) "receiver" "unknown"))).map Report.alert =
            flatten payload := by
        rw [List.map_map]
        rfl
      unfold reports received at ih ⊢
      rw [List.flatMap_cons, List.flatMap_cons, List.map_append, hhead, ih h, hok]
      rfl
    · rw [receive, herr] at h
      cases h

/-- **No alert masks another exactly when no firing alert is overtaken**, by an entry of the same
    fingerprint text, by one that is `null` like it, or without fingerprints by one that cannot be
    told from it; a triple that is firing under several fingerprints is masked when all are. -/
theorem no_alert_masked_iff {c : ℤ} {s₀ s : AlertStore} {payloads : List Json}
    (h₀ : AlertStore.new c = .ok s₀) (h : payloads.foldlM receive s₀ = .ok s)
    (hfit : ((received payloads).length : ℤ) ≤ c) :
    NoneMasked s (received payloads) ↔ EveryFiringKept (reports payloads) := by
  -- Nothing was evicted: the store shows the whole history.
  have hitems : s.items = received payloads := by
    unfold AlertStore.new at h₀
    split at h₀
    · cases h₀
    · rename_i hc
      cases h₀
      have hempty : AlertStore.Holds ⟨c.toNat, [], by omega, Nat.zero_le _⟩ [] :=
        List.drop_nil.symm
      obtain ⟨hheld, hcap⟩ := holds_receive hempty h
      rw [List.nil_append] at hheld
      rw [hheld, hcap]
      exact Window.window_eq_self (by
        show _ ≤ c.toNat
        omega)
  rw [← map_alert_reports h] at hitems ⊢
  exact noneMasked_iff hitems

end Received

/-! ## Two alerts with one key -/

/-- One entry of `alerts`, with the members after its labels. -/
def entryOf (status alertname job : String) (rest : List (String × Json)) : Json :=
  .obj ([("status", .str status),
    ("labels", .obj [("alertname", .str alertname), ("job", .str job)])] ++ rest)

/-- A firing alert, and the resolution of another one, both with a `null` fingerprint. -/
def nullFingerprints : Json :=
  .obj [("version", .str "4"), ("alerts", .arr [
    entryOf "firing" "TargetDown" "node" [("fingerprint", .null)],
    entryOf "resolved" "ProbeFailed" "blackbox" [("fingerprint", .null)]])]

/-- The same alert of two jobs, without fingerprints. -/
def twoJobs : Json :=
  .obj [("version", .str "4"), ("alerts", .arr [
    entryOf "firing" "TargetDown" "node" [], entryOf "resolved" "TargetDown" "loki" []])]

theorem null_fingerprint_masks :
    ∃ s₀ s, AlertStore.new 500 = .ok s₀ ∧
      [nullFingerprints].foldlM (@receive latin1) s₀ = .ok s ∧
      (@received latin1 [nullFingerprints]).length ≤ 500 ∧
      ¬ NoneMasked s (@received latin1 [nullFingerprints]) := by
  refine ⟨⟨500, [], by decide, by decide⟩, _, rfl, rfl, by decide, ?_⟩
  intro hnone
  obtain ⟨b, hb, -⟩ := hnone
    ⟨"unknown", "firing", "TargetDown", "none", "node", "", "", "", "", "None"⟩
    ⟨[], [⟨"unknown", "resolved", "ProbeFailed", "none", "blackbox", "", "", "", "", "None"⟩],
      by decide, by decide⟩ rfl
  have hnil : b ∈ ([] : List ReceivedAlert) := hb
  cases hnil

theorem no_alert_masked_iff_two_jobs :
    ∃ s, [twoJobs].foldlM (@receive latin1) ⟨500, [], by decide, by decide⟩ = .ok s ∧
      (NoneMasked s (@received latin1 [twoJobs]) ↔
        EveryFiringKept (@reports latin1 [twoJobs])) ∧
      s.firing = [] :=
  ⟨_, rfl, @no_alert_masked_iff latin1 500 _ _ _ rfl rfl (by decide), by decide⟩

end AlertSink
end ObservabilityStack
