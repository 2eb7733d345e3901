import ObservabilityStack.AlertSink.Grammar

/-!
# Null and absent members of a notification

`clean` removes every member whose value is null, from the payload, from its alerts and from
their labels and annotations. The code takes a null for an absent member where it asks `is None`:
for `version`, `labels` and `annotations`. A text is read with `str(entry.get(key, default))`,
which prints a null as `None`, so a payload and its clean version are told apart exactly when a
text that is read is null (`null_means_absent_iff`).

Cleaning is a transformation of the input, and the question is what the parser makes of the two
payloads. Going down the levels, the lemmas say what a read of the clean value returns in terms of
the same read of the original one: the same, unless it was null, and then nothing. At the level of
texts nothing becomes the fallback, and `None` is none of the fallbacks.
-/

set_option autoImplicit false

namespace ObservabilityStack
namespace AlertSink

open Python (Json)

def notNull : Json → Bool
  | .null => false
  | _ => true

/-- The members of the `dict` that are not null. -/
def dropNulls (pairs : List (String × Json)) : List (String × Json) :=
  (Json.members pairs).entries.filter fun e => notNull e.2

/-- The object `labels` or `annotations`, and any other member of an alert. -/
def cleanMember (key : String) (value : Json) : Json :=
  match value with
  | .obj pairs => if key = "labels" ∨ key = "annotations" then .obj (dropNulls pairs) else value
  | _ => value

def cleanEntry : Json → Json
  | .obj pairs => .obj ((dropNulls pairs).map fun p => (p.1, cleanMember p.1 p.2))
  | value => value

/-- The array `alerts`, and any other member of the payload. -/
def cleanAlerts (key : String) (value : Json) : Json :=
  match value with
  | .arr alerts => if key = "alerts" then .arr (alerts.map cleanEntry) else value
  | _ => value

def clean : Json → Json
  | .obj pairs => .obj ((dropNulls pairs).map fun p => (p.1, cleanAlerts p.1 p.2))
  | value => value

/-! ## What is read afterwards

One lemma for each level, and one for the members that are objects or lists and are cleaned in
turn. -/

theorem member_dropNulls (pairs : List (String × Json)) (key : String) :
    member (dropNulls pairs) key = (member pairs key).filter notNull := by
  have hnodup : ((dropNulls pairs).map Prod.fst).Nodup :=
    (Json.members pairs).nodup.sublist (List.filter_sublist.map Prod.fst)
  apply Option.ext
  intro value
  unfold member
  rw [← Dict.mem_entries, Json.entries_members hnodup, dropNulls, List.mem_filter,
    Dict.mem_entries, Option.filter_eq_some_iff]

theorem member_map_dropNulls (f : String → Json → Json) (pairs : List (String × Json))
    (key : String) :
    member ((dropNulls pairs).map fun p => (p.1, f p.1 p.2)) key =
      ((member pairs key).filter notNull).map (f key) := by
  rw [← member_dropNulls]
  exact Json.get?_members_map f (dropNulls pairs) key

theorem member_cleanEntry (entry : Json) (key : String) :
    member (fields (cleanEntry entry)) key =
      ((member (fields entry) key).filter notNull).map (cleanMember key) := by
  cases entry with
  | obj pairs => exact member_map_dropNulls cleanMember pairs key
  | null | bool _ | int _ | float _ | str _ | arr _ => rfl

theorem member_clean (payload : Json) (key : String) :
    member (fields (clean payload)) key =
      ((member (fields payload) key).filter notNull).map (cleanAlerts key) := by
  cases payload with
  | obj pairs => exact member_map_dropNulls cleanAlerts pairs key
  | null | bool _ | int _ | float _ | str _ | arr _ => rfl

/-- A member of `labels` or `annotations`. -/
theorem member_nested_cleanEntry (entry : Json) {key : String}
    (hkey : key = "labels" ∨ key = "annotations") (name : String) :
    member (nested (fields (cleanEntry entry)) key) name =
      (member (nested (fields entry) key) name).filter notNull := by
  unfold nested
  rw [member_cleanEntry]
  cases member (fields entry) key with
  | none => rfl
  | some value =>
    cases value with
    | obj pairs =>
      simp only [Option.filter_some, notNull, if_true, Option.map_some, cleanMember, hkey,
        Option.getD_some, fields]
      exact member_dropNulls pairs name
    | null | bool _ | int _ | float _ | str _ | arr _ => rfl

theorem omittable_cleanEntry (entry : Json) :
    Omittable (member (fields (cleanEntry entry)) "annotations") ↔
      Omittable (member (fields entry) "annotations") := by
  rw [member_cleanEntry]
  cases member (fields entry) "annotations" with
  | none => exact Iff.rfl
  | some value =>
    cases value with
    | null => simp [Omittable, notNull]
    | obj pairs => simp [Omittable, notNull, cleanMember]
    | bool _ | int _ | float _ | str _ | arr _ => exact Iff.rfl

/-- The elements are the clean ones of the payload. -/
theorem entries_clean (payload : Json) :
    entries (clean payload) = (entries payload).map cleanEntry := by
  unfold entries
  rw [member_clean]
  cases member (fields payload) "alerts" with
  | none => rfl
  | some value => cases value <;> rfl

/-- The members that are read as texts keep their value, unless it is null. -/
theorem member_cleanEntry_text (entry : Json) {key : String}
    (hkey : ¬ (key = "labels" ∨ key = "annotations")) :
    member (fields (cleanEntry entry)) key = (member (fields entry) key).filter notNull := by
  have hsame : ∀ value, cleanMember key value = value := by
    intro value
    cases value with
    | obj pairs => exact if_neg hkey
    | null | bool _ | int _ | float _ | str _ | arr _ => rfl
  rw [member_cleanEntry, funext hsame, Option.map_id']

theorem member_clean_text (payload : Json) {key : String} (hkey : key ≠ "alerts") :
    member (fields (clean payload)) key = (member (fields payload) key).filter notNull := by
  have hsame : ∀ value, cleanAlerts key value = value := by
    intro value
    cases value with
    | arr alerts => exact if_neg hkey
    | null | bool _ | int _ | float _ | str _ | obj _ => rfl
  rw [member_clean, funext hsame, Option.map_id']

/-! ## What becomes of the alerts

Nine texts are read from an alert, all in one way, so one equivalence about a text gives the
nine. -/

/-- No text that is read from the element is null. -/
def ReadsNoNull (entry : Json) : Prop :=
  (∀ key ∈ ["status", "startsAt", "fingerprint"], member (fields entry) key ≠ some .null) ∧
  (∀ key ∈ ["alertname", "severity", "job", "instance"],
    member (nested (fields entry) "labels") key ≠ some .null) ∧
  ∀ key ∈ ["summary", "runbook_url"],
    member (nested (fields entry) "annotations") key ≠ some .null

section Texts

variable [Unicode]

/-- A text of which null members are dropped is the same text exactly when it was not null. -/
theorem text_eq_iff {pairs pairs' : List (String × Json)} {key fallback : String}
    (hmember : member pairs' key = (member pairs key).filter notNull)
    (hfallback : fallback ≠ "None") :
    text pairs key fallback = text pairs' key fallback ↔ member pairs key ≠ some .null := by
  unfold text
  rw [hmember]
  cases member pairs key with
  | none => exact iff_of_true rfl (by simp)
  | some value =>
    cases value with
    | null =>
      have hnone : "None" ≠ fallback := hfallback.symm
      exact iff_of_false hnone (by simp)
    | bool _ | int _ | float _ | str _ | arr _ | obj _ => exact iff_of_true rfl (by simp)

/-- What is dropped prints as `None`, so it was not empty. -/
theorem text_ne_empty_iff {pairs pairs' : List (String × Json)} {key : String}
    (hmember : member pairs' key = (member pairs key).filter notNull) :
    text pairs' key "" ≠ "" ↔ text pairs key "" ≠ "" ∧ member pairs key ≠ some .null := by
  unfold text
  rw [hmember]
  cases member pairs key with
  | none => simp
  | some value =>
    cases value with
    | null => simp [notNull, Option.filter_some]
    | bool _ | int _ | float _ | str _ | arr _ | obj _ => simp [notNull, Option.filter_some]

theorem flattenAlert_cleanEntry_iff (receiver receiver' : String) (entry : Json) :
    flattenAlert receiver entry = flattenAlert receiver' (cleanEntry entry) ↔
      receiver = receiver' ∧ ReadsNoNull entry := by
  have hfield : ∀ key fallback, ¬ (key = "labels" ∨ key = "annotations") → fallback ≠ "None" →
      (text (fields entry) key fallback = text (fields (cleanEntry entry)) key fallback ↔
        member (fields entry) key ≠ some .null) :=
    fun key fallback hkey => text_eq_iff (member_cleanEntry_text entry hkey)
  have hlabel : ∀ name fallback, fallback ≠ "None" →
      (text (nested (fields entry) "labels") name fallback =
          text (nested (fields (cleanEntry entry)) "labels") name fallback ↔
        member (nested (fields entry) "labels") name ≠ some .null) :=
    fun name fallback => text_eq_iff (member_nested_cleanEntry entry (Or.inl rfl) name)
  have hnote : ∀ name fallback, fallback ≠ "None" →
      (text (nested (fields entry) "annotations") name fallback =
          text (nested (fields (cleanEntry entry)) "annotations") name fallback ↔
        member (nested (fields entry) "annotations") name ≠ some .null) :=
    fun name fallback => text_eq_iff (member_nested_cleanEntry entry (Or.inr rfl) name)
  unfold flattenAlert ReadsNoNull
  rw [ReceivedAlert.mk.injEq, hfield "status" _ (by simp) (by simp),
    hfield "startsAt" _ (by simp) (by simp), hfield "fingerprint" _ (by simp) (by simp),
    hlabel "alertname" _ (by simp), hlabel "severity" _ (by simp), hlabel "job" _ (by simp),
    hlabel "instance" _ (by simp), hnote "summary" _ (by simp), hnote "runbook_url" _ (by simp)]
  simp only [List.mem_cons, List.not_mem_nil, or_false, forall_eq_or_imp, forall_eq]
  tauto

/-- A clean element is grammatical when the element was, and its name was not null. -/
theorem grammaticalAlert_cleanEntry_iff (entry : Json) :
    GrammaticalAlert (cleanEntry entry) ↔ GrammaticalAlert entry ∧
      member (nested (fields entry) "labels") "alertname" ≠ some .null := by
  cases entry with
  | obj pairs =>
    have hclean : cleanEntry (.obj pairs) = .obj (fields (cleanEntry (.obj pairs))) := rfl
    have homit : Omittable (member (fields (cleanEntry (.obj pairs))) "annotations") ↔
        Omittable (member pairs "annotations") := omittable_cleanEntry (.obj pairs)
    have hname : text (nested (fields (cleanEntry (.obj pairs))) "labels") "alertname" "" ≠ "" ↔
        text (nested pairs "labels") "alertname" "" ≠ "" ∧
          member (nested pairs "labels") "alertname" ≠ some .null :=
      text_ne_empty_iff (member_nested_cleanEntry (.obj pairs) (Or.inl rfl) "alertname")
    rw [hclean, grammaticalAlert_obj, grammaticalAlert_obj, homit, hname]
    exact and_right_comm
  | null | bool _ | int _ | float _ | str _ | arr _ =>
    refine iff_of_false ?_ ?_
    · intro h
      obtain ⟨_, _, _, heq, -⟩ := h
      cases heq
    · intro h
      obtain ⟨⟨_, _, _, heq, -⟩, -⟩ := h
      cases heq

theorem supported_clean (payload : Json) :
    Supported (member (fields (clean payload)) "version") ↔
      Supported (member (fields payload) "version") := by
  rw [member_clean_text payload (by simp)]
  cases member (fields payload) "version" with
  | none => exact Iff.rfl
  | some value =>
    cases value with
    | null => exact iff_of_true (Or.inl rfl) (Or.inr (Or.inl rfl))
    | bool _ | int _ | float _ | str _ | arr _ | obj _ => exact Iff.rfl

theorem grammatical_obj {pairs : List (String × Json)} :
    Grammatical (.obj pairs) ↔ Supported (member pairs "version") ∧
      ∃ alerts, member pairs "alerts" = some (.arr alerts) ∧
        ∀ entry ∈ alerts, GrammaticalAlert entry := by
  constructor
  · intro h
    obtain ⟨_, alerts, heq, hversion, halerts, hall⟩ := h
    cases heq
    exact ⟨hversion, alerts, halerts, hall⟩
  · intro h
    obtain ⟨hversion, alerts, halerts, hall⟩ := h
    exact ⟨pairs, alerts, rfl, hversion, halerts, hall⟩

/-- The clean payload is grammatical when the payload was, and named its alerts. -/
theorem grammatical_clean_iff (payload : Json) :
    Grammatical (clean payload) ↔ Grammatical payload ∧ ∀ entry ∈ entries payload,
      member (nested (fields entry) "labels") "alertname" ≠ some .null := by
  cases payload with
  | obj pairs =>
    have hclean : clean (.obj pairs) = .obj (fields (clean (.obj pairs))) := rfl
    have hversion : Supported (member (fields (clean (.obj pairs))) "version") ↔
        Supported (member pairs "version") := supported_clean (.obj pairs)
    have halerts : member (fields (clean (.obj pairs))) "alerts" =
        ((member pairs "alerts").filter notNull).map (cleanAlerts "alerts") :=
      member_clean (.obj pairs) "alerts"
    rw [hclean, grammatical_obj, grammatical_obj, hversion, halerts, and_assoc]
    apply and_congr_right
    intro _
    have hfields : fields (.obj pairs) = pairs := rfl
    unfold entries
    rw [hfields]
    cases member pairs "alerts" with
    | none => simp
    | some value =>
      cases value with
      | arr alerts =>
        simp only [Option.filter_some, notNull, if_true, Option.map_some, cleanAlerts,
          Option.some.injEq, Json.arr.injEq, exists_eq_left', List.forall_mem_map,
          grammaticalAlert_cleanEntry_iff, forall_and]
      | null => simp [notNull, Option.filter_some]
      | bool _ | int _ | float _ | str _ | obj _ =>
        simp [notNull, Option.filter_some, cleanAlerts]
  | null | bool _ | int _ | float _ | str _ | arr _ =>
    refine iff_of_false ?_ ?_
    · intro h
      obtain ⟨_, _, heq, -⟩ := h
      cases heq
    · intro h
      obtain ⟨⟨_, _, heq, -⟩, -⟩ := h
      cases heq

/-- The same list of alerts, or a rejection both times. -/
def SameOutcome (r r' : Except String (List ReceivedAlert)) : Prop :=
  match r, r' with
  | .ok alerts, .ok alerts' => alerts = alerts'
  | .error _, .error _ => True
  | _, _ => False

instance (r r' : Except String (List ReceivedAlert)) : Decidable (SameOutcome r r') :=
  match r, r' with
  | .ok alerts, .ok alerts' => inferInstanceAs (Decidable (alerts = alerts'))
  | .error _, .error _ => .isTrue trivial
  | .ok _, .error _ => .isFalse id
  | .error _, .ok _ => .isFalse id

/-- No text that is read from the payload is null. The receiver is read for the alerts. -/
def NoNullRead (payload : Json) : Prop :=
  ∀ entry ∈ entries payload,
    member (fields payload) "receiver" ≠ some .null ∧ ReadsNoNull entry

/-- The lists are the same exactly when no text is null. -/
theorem flatten_clean_iff (payload : Json) :
    flatten payload = flatten (clean payload) ↔ NoNullRead payload := by
  have hreceiver : text (fields payload) "receiver" "unknown" =
      text (fields (clean payload)) "receiver" "unknown" ↔
        member (fields payload) "receiver" ≠ some .null :=
    text_eq_iff (member_clean_text payload (by simp)) (by simp)
  unfold flatten NoNullRead
  rw [entries_clean, List.map_map, List.map_inj_left]
  apply forall_congr'
  intro entry
  apply forall_congr'
  intro _
  rw [← hreceiver]
  exact flattenAlert_cleanEntry_iff _ _ entry

/-- **Null means absent exactly for the payloads that are rejected, and for those in which no
    text that is read is null.** -/
theorem null_means_absent_iff (payload : Json) :
    SameOutcome (parseNotification payload) (parseNotification (clean payload)) ↔
      ¬ Grammatical payload ∨ NoNullRead payload := by
  have hboth := grammatical_clean_iff payload
  rcases parseNotification_eq payload with ⟨hgram, hok⟩ | ⟨hgram, message, herr⟩
  · rw [hok, or_iff_right (not_not.mpr hgram), ← flatten_clean_iff]
    rcases parseNotification_eq (clean payload) with ⟨-, hok'⟩ | ⟨hgram', message', herr'⟩
    · rw [hok']
      exact Iff.rfl
    · -- One of the names was null, and its alert is no longer named.
      rw [herr', flatten_clean_iff]
      refine iff_of_false id ?_
      intro hread
      apply hgram'
      refine hboth.mpr ⟨hgram, ?_⟩
      intro entry hentry
      exact (hread entry hentry).2.2.1 "alertname" (by simp)
  · rw [herr]
    refine iff_of_true ?_ (Or.inl hgram)
    rcases parseNotification_eq (clean payload) with ⟨hgram', -⟩ | ⟨-, message', herr'⟩
    · exact absurd (hboth.mp hgram').1 hgram
    · rw [herr']
      exact trivial

end Texts

/-- A sender that has no fingerprint for an alert. -/
def withoutFingerprint : Json :=
  .obj [("alerts", .arr [.obj [("labels", .obj [("alertname", .str "HighLatency")]),
    ("fingerprint", .null)]])]

theorem null_fingerprint_is_printed : ¬ ∀ payload,
    SameOutcome (@parseNotification Python.latin1 payload)
      (@parseNotification Python.latin1 (clean payload)) := by
  intro h
  exact absurd (h withoutFingerprint) (by decide)

end AlertSink
end ObservabilityStack
