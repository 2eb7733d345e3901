import ObservabilityStack.AlertSink.Model
import ObservabilityStack.Lib.Traverse

/-!
# The grammar of notifications

`Grammatical` says which JSON values are notifications, in terms of members and of how they
print, and `flatten` what alerts such a value carries. Neither is a parser: `parse_notification`
accepts exactly the grammatical values and returns exactly that list (`parseNotification_eq`).

## The guards

The code asks for the type of a value before it calls a method of it. In `parseNotification` a
pattern does both at once, so it has nothing to say about exceptions other than its own. In
`Guarded` the tests and the calls are apart, and a method that is called on a value without it
raises what the interpreter raises. `Guarded.parseNotification_eq` is that the tests suffice.

A description that is not a parser is needed because the two are read for different reasons. A
sender wants to know which payloads are accepted, and that is a condition on members; an operator
wants to know which alert a row comes from, and that is a map from elements to alerts. The parser
answers both with one loop in which the first element that is refused decides.

How a value that is no text prints is Python's business and stays in `toStr`. A name that is a
number is a name.
-/

set_option autoImplicit false

namespace ObservabilityStack
namespace AlertSink

open Python (Json)

/-- What `json.loads` put at that key, if anything. -/
def member (pairs : List (String × Json)) (key : String) : Option Json :=
  (Json.members pairs).get? key

/-- The members of an object; nothing else has any. -/
def fields : Json → List (String × Json)
  | .obj pairs => pairs
  | _ => []

section Grammar

variable [Unicode]

/-- How a member prints, or the fallback for an absent one. -/
def text (pairs : List (String × Json)) (key fallback : String) : String :=
  ((member pairs key).map Json.toStr).getD fallback

/-- The member is absent, null or an object. -/
def Omittable (value : Option Json) : Prop :=
  value = none ∨ value = some .null ∨ ∃ pairs, value = some (.obj pairs)

/-- An element of `alerts`. -/
def GrammaticalAlert (entry : Json) : Prop :=
  ∃ pairs labels alertname, entry = .obj pairs ∧ member pairs "labels" = some (.obj labels) ∧
    member labels "alertname" = some alertname ∧ alertname.toStr ≠ "" ∧
    Omittable (member pairs "annotations")

/-- `version` is absent, null or prints as the supported one. -/
def Supported (version : Option Json) : Prop :=
  version = none ∨ version = some .null ∨
    ∃ value, version = some value ∧ value.toStr = supportedVersion

def Grammatical (payload : Json) : Prop :=
  ∃ pairs alerts, payload = .obj pairs ∧ Supported (member pairs "version") ∧
    member pairs "alerts" = some (.arr alerts) ∧ ∀ entry ∈ alerts, GrammaticalAlert entry

/-- The members of `labels` or of `annotations`. -/
def nested (entry : List (String × Json)) (key : String) : List (String × Json) :=
  fields ((member entry key).getD .null)

/-- What an element of `alerts` carries. -/
def flattenAlert (receiver : String) (entry : Json) : ReceivedAlert where
  receiver := receiver
  status := text (fields entry) "status" "unknown"
  alertname := text (nested (fields entry) "labels") "alertname" ""
  severity := text (nested (fields entry) "labels") "severity" "none"
  job := text (nested (fields entry) "labels") "job" ""
  instance_ := text (nested (fields entry) "labels") "instance" ""
  summary := text (nested (fields entry) "annotations") "summary" ""
  runbookUrl := text (nested (fields entry) "annotations") "runbook_url" ""
  startsAt := text (fields entry) "startsAt" ""
  fingerprint := text (fields entry) "fingerprint" ""

/-- The elements of `alerts`. -/
def entries (payload : Json) : List Json :=
  match member (fields payload) "alerts" with
  | some (.arr alerts) => alerts
  | _ => []

/-- The alerts of a payload, one for each element and in their order. -/
def flatten (payload : Json) : List ReceivedAlert :=
  (entries payload).map (flattenAlert (text (fields payload) "receiver" "unknown"))

/-! ## What the readers return

A member can be absent, null or of the wrong type, at each of the levels. The readers have an
answer for each, and these lemmas give it in the terms of the grammar. -/

theorem getD_eq_text (pairs : List (String × Json)) (key fallback : String) :
    (Json.getD pairs key (.str fallback)).toStr = text pairs key fallback := by
  unfold Json.getD Dict.getD text member
  cases (Json.members pairs).get? key with
  | none => rfl
  | some value => rfl

theorem stringMap_obj (pairs : List (String × Json)) (field : String) :
    ∃ d, stringMap (.obj pairs) field = .ok d ∧
      ∀ key fallback, d.getD key fallback = text pairs key fallback := by
  refine ⟨_, rfl, ?_⟩
  intro key fallback
  unfold Dict.getD text member
  rw [Json.get?_members_map fun _ => Json.toStr]

/-- A map that is read from nothing, from null or from an object reads as the members do. -/
theorem stringMap_omittable {pairs : List (String × Json)} {key : String}
    (h : Omittable (member pairs key)) (field : String) :
    ∃ d, stringMap (Json.get pairs key) field = .ok d ∧
      ∀ name fallback, d.getD name fallback = text (nested pairs key) name fallback := by
  have hget : Json.get pairs key = (member pairs key).getD .null := rfl
  unfold nested
  rw [hget]
  rcases h with h | h | ⟨values, h⟩
  · rw [h]
    exact ⟨.empty, rfl, fun _ _ => rfl⟩
  · rw [h]
    exact ⟨.empty, rfl, fun _ _ => rfl⟩
  · rw [h]
    exact stringMap_obj values field

/-- Any other value is refused. -/
theorem stringMap_error {pairs : List (String × Json)} {key : String}
    (h : ¬ Omittable (member pairs key)) (field : String) :
    ∃ message, stringMap (Json.get pairs key) field = .error message := by
  have hget : Json.get pairs key = (member pairs key).getD .null := rfl
  rw [hget]
  unfold Omittable at h
  push Not at h
  obtain ⟨hnone, hnull, hobj⟩ := h
  cases hvalue : member pairs key with
  | none => exact absurd hvalue hnone
  | some value =>
    cases value with
    | null => exact absurd hvalue hnull
    | obj values => exact absurd hvalue (hobj values)
    | bool _ | int _ | float _ | str _ | arr _ => exact ⟨_, rfl⟩

theorem text_nil (key fallback : String) : text [] key fallback = fallback := rfl

/-- A nested text that is not empty is the text of a member that is there. -/
theorem text_nested_ne_empty {pairs : List (String × Json)} {key name : String} :
    text (nested pairs key) name "" ≠ "" ↔ ∃ values value, member pairs key = some (.obj values) ∧
      member values name = some value ∧ value.toStr ≠ "" := by
  constructor
  · intro h
    have hfields : nested pairs key ≠ [] := by
      intro hnil
      rw [hnil] at h
      exact h (text_nil name "")
    unfold nested at h hfields
    cases hobj : member pairs key with
    | none => rw [hobj] at hfields; exact absurd rfl hfields
    | some value =>
      rw [hobj] at h hfields
      cases value with
      | obj values =>
        refine ⟨values, ?_⟩
        cases hvalue : member values name with
        | none => simp [fields, text, hvalue] at h
        | some value => exact ⟨value, rfl, rfl, by simpa [fields, text, hvalue] using h⟩
      | null | bool _ | int _ | float _ | str _ | arr _ => exact absurd rfl hfields
  · intro h
    obtain ⟨values, value, hobj, hvalue, hprints⟩ := h
    simpa [nested, hobj, fields, text, hvalue] using hprints

theorem grammaticalAlert_obj {pairs : List (String × Json)} :
    GrammaticalAlert (.obj pairs) ↔
      text (nested pairs "labels") "alertname" "" ≠ "" ∧
        Omittable (member pairs "annotations") := by
  rw [text_nested_ne_empty]
  constructor
  · intro h
    obtain ⟨_, labels, alertname, heq, hobj, hname, hprints, homit⟩ := h
    cases heq
    exact ⟨⟨labels, alertname, hobj, hname, hprints⟩, homit⟩
  · intro h
    obtain ⟨⟨labels, alertname, hobj, hname, hprints⟩, homit⟩ := h
    exact ⟨pairs, labels, alertname, rfl, hobj, hname, hprints, homit⟩

/-- **An element of `alerts` is parsed exactly when it is grammatical.** -/
theorem parseAlert_eq (receiver : String) (entry : Json) :
    (GrammaticalAlert entry ∧ parseAlert receiver entry = .ok (flattenAlert receiver entry)) ∨
      (¬ GrammaticalAlert entry ∧ ∃ message, parseAlert receiver entry = .error message) := by
  cases entry with
  | obj pairs =>
    rw [grammaticalAlert_obj]
    by_cases hlabels : Omittable (member pairs "labels")
    · obtain ⟨labels, hl, hlabel⟩ := stringMap_omittable hlabels "labels"
      by_cases hnotes : Omittable (member pairs "annotations")
      · obtain ⟨annotations, hn, hnote⟩ := stringMap_omittable hnotes "annotations"
        simp only [parseAlert, hl, hn, bind, Except.bind, hlabel, hnote, getD_eq_text]
        by_cases hname : text (nested pairs "labels") "alertname" "" = ""
        · exact Or.inr ⟨fun h => h.1 hname, _, if_pos hname⟩
        · exact Or.inl ⟨⟨hname, hnotes⟩, if_neg hname⟩
      · obtain ⟨message, hn⟩ := stringMap_error hnotes "annotations"
        have hfails : parseAlert receiver (.obj pairs) = .error message := by
          simp only [parseAlert, hl, hn, bind, Except.bind]
        exact Or.inr ⟨fun h => hnotes h.2, message, hfails⟩
    · obtain ⟨message, hl⟩ := stringMap_error hlabels "labels"
      refine Or.inr ⟨?_, message, by simp only [parseAlert, hl, bind, Except.bind]⟩
      intro h
      obtain ⟨labels, _, hobj, -⟩ := text_nested_ne_empty.mp h.1
      exact hlabels (Or.inr (Or.inr ⟨labels, hobj⟩))
  | null | bool _ | int _ | float _ | str _ | arr _ =>
    refine Or.inr ⟨?_, _, rfl⟩
    intro h
    obtain ⟨_, _, _, heq, -⟩ := h
    cases heq

/-- The version check passes for what the grammar supports. -/
theorem checkVersion_eq (pairs : List (String × Json)) :
    (Supported (member pairs "version") ∧ checkVersion (Json.get pairs "version") = .ok ()) ∨
      (¬ Supported (member pairs "version") ∧
        ∃ message, checkVersion (Json.get pairs "version") = .error message) := by
  have hget : Json.get pairs "version" = (member pairs "version").getD .null := rfl
  rw [hget]
  cases hversion : member pairs "version" with
  | none => exact Or.inl ⟨Or.inl rfl, rfl⟩
  | some version =>
    by_cases hnull : version = .null
    · subst hnull
      exact Or.inl ⟨Or.inr (Or.inl rfl), rfl⟩
    · have hcheck : checkVersion version = if version.toStr = supportedVersion then .ok ()
          else .error (s!"unsupported webhook schema version {version.repr}" ++
            s!", expected {supportedVersion}") := by
        cases version with
        | null => exact absurd rfl hnull
        | bool _ | int _ | float _ | str _ | arr _ | obj _ => rfl
      rw [Option.getD_some, hcheck]
      by_cases hprints : version.toStr = supportedVersion
      · exact Or.inl ⟨Or.inr (Or.inr ⟨version, rfl, hprints⟩), if_pos hprints⟩
      · refine Or.inr ⟨?_, _, if_neg hprints⟩
        intro h
        rcases h with h | h | ⟨value, hvalue, hok⟩
        · cases h
        · exact hnull (Option.some.inj h)
        · cases hvalue
          exact hprints hok

/-- **`parse_notification` accepts the grammatical payloads, and returns their alerts.** -/
theorem parseNotification_eq (payload : Json) :
    (Grammatical payload ∧ parseNotification payload = .ok (flatten payload)) ∨
      (¬ Grammatical payload ∧ ∃ message, parseNotification payload = .error message) := by
  cases payload with
  | obj pairs =>
    have hget : Json.get pairs "alerts" = (member pairs "alerts").getD .null := rfl
    rcases checkVersion_eq pairs with ⟨hversion, hcheck⟩ | ⟨hversion, message, hcheck⟩
    · simp only [parseNotification, hcheck, bind, Except.bind, getD_eq_text]
      -- The version has passed its check; the next one is that `alerts` is a list.
      by_cases harr : ∃ alerts, member pairs "alerts" = some (.arr alerts)
      · obtain ⟨alerts, halerts⟩ := harr
        rw [hget, halerts]
        -- The comprehension stops at the first entry that raises, and so does `mapM`.
        rcases Traverse.mapM_eq (parseAlert_eq (text pairs "receiver" "unknown")) alerts with
          ⟨hall, hok⟩ | ⟨hbad, message, herr⟩
        · refine Or.inl ⟨⟨pairs, alerts, rfl, hversion, halerts, hall⟩, ?_⟩
          unfold flatten entries
          simp only [fields, halerts]
          exact hok
        · refine Or.inr ⟨?_, message, herr⟩
          intro h
          obtain ⟨_, alerts', heq, -, halerts', hall⟩ := h
          cases heq
          cases halerts.symm.trans halerts'
          exact hbad hall
      · refine Or.inr ⟨?_, ?_⟩
        · intro h
          obtain ⟨_, alerts, heq, -, halerts, -⟩ := h
          cases heq
          exact harr ⟨alerts, halerts⟩
        · rw [hget]
          cases hvalue : member pairs "alerts" with
          | none => exact ⟨_, rfl⟩
          | some value =>
            cases value with
            | arr alerts => exact absurd ⟨alerts, hvalue⟩ harr
            | null | bool _ | int _ | float _ | str _ | obj _ => exact ⟨_, rfl⟩
    · refine Or.inr ⟨?_, message, by simp only [parseNotification, hcheck, bind, Except.bind]⟩
      intro h
      obtain ⟨_, _, heq, hsupported, -⟩ := h
      cases heq
      exact hversion hsupported
  | null | bool _ | int _ | float _ | str _ | arr _ =>
    refine Or.inr ⟨?_, _, rfl⟩
    intro h
    obtain ⟨_, _, heq, -⟩ := h
    cases heq

/-! ## The guards suffice

The same program once more, in a monad that can raise what the interpreter raises. Each function
has a lemma which says that it returns what its total counterpart does, and raises only that. They
are the same proof each time: where a method is called, a test before it has decided the type. -/

/-- What comes out of the parser: its own exception, or what the interpreter raises for an
    operation on a value of another type. -/
inductive Raised
  | malformed (message : String)
  | attributeError (message : String)
  | typeError (message : String)
  deriving DecidableEq, Repr

namespace Guarded

/-- `type(value).__name__`. -/
def typeName : Json → String
  | .null => "NoneType"
  | .bool _ => "bool"
  | .int _ => "int"
  | .float _ => "float"
  | .str _ => "str"
  | .arr _ => "list"
  | .obj _ => "dict"

def isNone : Json → Bool
  | .null => true
  | _ => false

/-- `isinstance(value, dict)`. -/
def isDict : Json → Bool
  | .obj _ => true
  | _ => false

/-- `isinstance(value, list)`. -/
def isList : Json → Bool
  | .arr _ => true
  | _ => false

/-- `value.get(key, default)`. -/
def get (value : Json) (key : String) (default : Json) : Except Raised Json :=
  match value with
  | .obj pairs => .ok (Json.getD pairs key default)
  | value => .error (.attributeError s!"'{typeName value}' object has no attribute 'get'")

/-- `value.items()`: the pairs the `dict` is carried as. -/
def items : Json → Except Raised (List (String × Json))
  | .obj pairs => .ok pairs
  | value => .error (.attributeError s!"'{typeName value}' object has no attribute 'items'")

/-- What `for` takes from `value`. -/
def iter : Json → Except Raised (List Json)
  | .arr elements => .ok elements
  | .obj pairs => .ok ((Json.members pairs).keys.map Json.str)
  | .str s => .ok (s.toList.map fun c => Json.str (String.singleton c))
  | value => .error (.typeError s!"'{typeName value}' object is not iterable")

/-- `_string_map`. -/
def stringMap (value : Json) (field : String) : Except Raised (Dict String String) :=
  if isNone value then .ok .empty
  else if !isDict value then .error (.malformed s!"{field} must be an object")
  else do
    let pairs ← items value
    return Json.members (pairs.map fun p => (p.1, p.2.toStr))

/-- One turn of the loop. -/
def parseAlert (receiver : String) (entry : Json) : Except Raised ReceivedAlert :=
  if !isDict entry then .error (.malformed "every element of `alerts` must be an object")
  else do
    let labels ← stringMap (← get entry "labels" .null) "labels"
    let annotations ← stringMap (← get entry "annotations" .null) "annotations"
    let alertname := labels.getD "alertname" ""
    if alertname = "" then .error (.malformed "alert is missing the `alertname` label")
    else
      let status ← get entry "status" (.str "unknown")
      let startsAt ← get entry "startsAt" (.str "")
      let fingerprint ← get entry "fingerprint" (.str "")
      return {
        receiver := receiver
        status := status.toStr
        alertname := alertname
        severity := labels.getD "severity" "none"
        job := labels.getD "job" ""
        instance_ := labels.getD "instance" ""
        summary := annotations.getD "summary" ""
        runbookUrl := annotations.getD "runbook_url" ""
        startsAt := startsAt.toStr
        fingerprint := fingerprint.toStr }

/-- The loop, with the list `parsed` so far. -/
def parseFrom (receiver : String) :
    List ReceivedAlert → List Json → Except Raised (List ReceivedAlert)
  | parsed, [] => .ok parsed
  | parsed, entry :: rest => do
      let alert ← parseAlert receiver entry
      parseFrom receiver (parsed ++ [alert]) rest

/-- The check of `version`. -/
def checkVersion (version : Json) : Except Raised Unit :=
  if !isNone version && version.toStr ≠ supportedVersion then
    .error (.malformed (s!"unsupported webhook schema version {version.repr}" ++
      s!", expected {supportedVersion}"))
  else .ok ()

/-- `parse_notification`. -/
def parseNotification (payload : Json) : Except Raised (List ReceivedAlert) :=
  if !isDict payload then .error (.malformed "notification must be a JSON object")
  else do
    checkVersion (← get payload "version" .null)
    let receiver ← get payload "receiver" (.str "unknown")
    let rawAlerts ← get payload "alerts" .null
    if !isList rawAlerts then .error (.malformed "notification must carry an `alerts` array")
    else
      let entries ← iter rawAlerts
      parseFrom receiver.toStr [] entries

theorem stringMap_eq (value : Json) (field : String) :
    stringMap value field = (AlertSink.stringMap value field).mapError .malformed := by
  cases value <;> rfl

theorem parseAlert_eq_mapError (receiver : String) (entry : Json) :
    parseAlert receiver entry = (AlertSink.parseAlert receiver entry).mapError .malformed := by
  cases entry with
  | obj pairs =>
    simp only [parseAlert, AlertSink.parseAlert, isDict, get, stringMap_eq, Bool.not_true,
      Bool.false_eq_true, if_false, bind, Except.bind, Json.get]
    cases AlertSink.stringMap (Json.getD pairs "labels" .null) "labels" with
    | error message => rfl
    | ok labels =>
      cases AlertSink.stringMap (Json.getD pairs "annotations" .null) "annotations" with
      | error message => rfl
      | ok annotations =>
        dsimp only [Except.mapError]
        split
        · rfl
        · rfl
  | null | bool _ | int _ | float _ | str _ | arr _ => rfl

theorem parseFrom_eq (receiver : String) (parsed : List ReceivedAlert) (rest : List Json) :
    parseFrom receiver parsed rest =
      ((rest.mapM (AlertSink.parseAlert receiver)).map (parsed ++ ·)).mapError .malformed := by
  induction rest generalizing parsed with
  | nil => simp [parseFrom, Except.map, Except.mapError, pure, Except.pure]
  | cons entry rest ih =>
    rw [parseFrom, parseAlert_eq_mapError, List.mapM_cons]
    cases AlertSink.parseAlert receiver entry with
    | error message => rfl
    | ok alert =>
      refine (ih (parsed ++ [alert])).trans ?_
      cases rest.mapM (AlertSink.parseAlert receiver) with
      | error message => rfl
      | ok alerts => simp [Except.map, Except.mapError, bind, Except.bind, pure, Except.pure]

theorem checkVersion_eq_mapError (version : Json) :
    checkVersion version = (AlertSink.checkVersion version).mapError .malformed := by
  cases version with
  | null => rfl
  | bool _ | int _ | float _ | str _ | arr _ | obj _ =>
    simp only [checkVersion, AlertSink.checkVersion, isNone, Bool.not_false, Bool.true_and,
      decide_eq_true_eq, ne_eq, ite_not]
    split
    · rfl
    · rfl

/-- **The parser raises its own exception or none.** -/
theorem parseNotification_eq_mapError (payload : Json) :
    parseNotification payload = (AlertSink.parseNotification payload).mapError .malformed := by
  cases payload with
  | obj pairs =>
    simp only [parseNotification, AlertSink.parseNotification, isDict, get, Bool.not_true,
      Bool.false_eq_true, if_false, bind, Except.bind, Json.get, checkVersion_eq_mapError]
    cases AlertSink.checkVersion (Json.getD pairs "version" .null) with
    | error message => rfl
    | ok u =>
      cases Json.getD pairs "alerts" .null with
      | arr alerts =>
        refine (parseFrom_eq _ [] alerts).trans ?_
        simp only [List.nil_append]
        exact congrArg (Except.mapError Raised.malformed) (congrFun Except.map_id _)
      | null | bool _ | int _ | float _ | str _ | obj _ => rfl
  | null | bool _ | int _ | float _ | str _ | arr _ => rfl

end Guarded

/-- **`parse_notification` accepts exactly the grammar.** It returns the alerts of a grammatical
    payload, one for each element and in their order, and raises
    `MalformedNotificationError` for any other. -/
theorem parse_notification_grammar (payload : Json) :
    (Grammatical payload ∧ Guarded.parseNotification payload = .ok (flatten payload)) ∨
      (¬ Grammatical payload ∧
        ∃ message, Guarded.parseNotification payload = .error (.malformed message)) := by
  rw [Guarded.parseNotification_eq_mapError]
  rcases parseNotification_eq payload with ⟨hgram, hok⟩ | ⟨hgram, message, herr⟩
  · rw [hok]
    exact Or.inl ⟨hgram, rfl⟩
  · rw [herr]
    exact Or.inr ⟨hgram, message, rfl⟩

end Grammar
end AlertSink
end ObservabilityStack
