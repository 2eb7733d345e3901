import ObservabilityStack.AlertSink.Server

/-!
# Every notification is answered, except two kinds

`do_POST` means to answer every request: a body that is no notification is refused with a
message and leaves the store alone, one that is a notification is stored whole. `Posted` lists
the six ways a call can end. Four of them are answers. The other two are exceptions nothing
catches: `int` on a `Content-Length` that is no integer, and `json.loads` on bytes it cannot
decode, since the handler expects `JSONDecodeError` alone.

The result is one for a call and not for a connection. What a call leaves on the stream, which
`Posted.rfile` says, is what decides about the requests behind it, and that is a matter of its own.

`loads` is any function, since nothing about decoding is needed to tell an answer from an
exception: the handler catches one of the four ways in which it can fail, and the other three leave
it. The condition of the main result names them by what the parameter returns on the body, which is
a fact about the body alone.
-/

set_option autoImplicit false

namespace ObservabilityStack
namespace AlertSink

open Python (Json startswith latin1)

section Post

variable [Unicode] {loads : List UInt8 → Except LoadsError Json}

/-- The length the header gives, when it is one that is read. -/
def ReadLength (r : Request) (length : ℤ) : Prop :=
  Python.int (r.contentLength.getD "0") = some length ∧ 1 ≤ length ∧ length ≤ maxBodyBytes

/-- The ways a call of `do_POST` can end. -/
inductive Posted (loads : List UInt8 → Except LoadsError Json) (r : Request) (c : Connection) :
    Except Escaped Unit × Connection → Prop
  | noSuchPath (hpath : startswith r.path "/webhook/" = false) :
      Posted loads r c (.ok (), c.respond .notFound (errorPayload "no such path"))
  | badLength (hpath : startswith r.path "/webhook/" = true)
      (hint : Python.int (r.contentLength.getD "0") = none) :
      Posted loads r c (.error (.int (r.contentLength.getD "0")), c)
  | sizeRefused {length : ℤ} (hpath : startswith r.path "/webhook/" = true)
      (hint : Python.int (r.contentLength.getD "0") = some length)
      (hsize : ¬ (1 ≤ length ∧ length ≤ maxBodyBytes)) :
      Posted loads r c
        (.ok (), c.respond .badRequest (errorPayload "missing or oversized body"))
  | undecodable {length : ℤ} {error : LoadsError}
      (hpath : startswith r.path "/webhook/" = true) (hlen : ReadLength r length)
      (hloads : loads (c.rfile.take length.toNat) = .error error)
      (hother : ∀ message, error ≠ .jsonDecode message) :
      Posted loads r c (.error (.loads error), { c with rfile := c.rfile.drop length.toNat })
  | rejected {length : ℤ} {message : String}
      (hpath : startswith r.path "/webhook/" = true) (hlen : ReadLength r length)
      (hreason : loads (c.rfile.take length.toNat) = .error (.jsonDecode message) ∨
        ∃ payload, loads (c.rfile.take length.toNat) = .ok payload ∧
          parseNotification payload = .error message) :
      Posted loads r c (.ok (),
        (Connection.logged { c with rfile := c.rfile.drop length.toNat }
          [⟨.warning, "rejected notification: " ++ message, []⟩]).respond .badRequest
            (errorPayload message))
  | accepted {length : ℤ} {payload : Json} {alerts : List ReceivedAlert}
      (hpath : startswith r.path "/webhook/" = true) (hlen : ReadLength r length)
      (hloads : loads (c.rfile.take length.toNat) = .ok payload)
      (hparse : parseNotification payload = .ok alerts) :
      Posted loads r c (.ok (),
        (Connection.logged { c with
            rfile := c.rfile.drop length.toNat, store := (c.store.addAll alerts).1 }
          (alerts.map alertRecord)).respond .ok (acceptedPayload alerts.length))

/-- A call ends in one of those ways, one for each path through the code. -/
theorem doPost_cases (loads : List UInt8 → Except LoadsError Json) (r : Request)
    (c : Connection) :
    Posted loads r c (doPost loads r c) := by
  unfold doPost
  split
  · rename_i hpath
    exact .noSuchPath (by simpa using hpath)
  · rename_i hpath
    have hpath : startswith r.path "/webhook/" = true := by simpa using hpath
    dsimp only
    split
    · rename_i hint
      exact .badLength hpath hint
    · rename_i length hint
      split
      · rename_i hsize
        exact .sizeRefused hpath hint (by omega)
      · rename_i hsize
        -- The guard was passed, so `rfile.read(length)` runs with a length in range.
        have hlen : ReadLength r length := ⟨hint, by omega, by omega⟩
        unfold answer
        split
        · rename_i message hloads
          exact .rejected hpath hlen (Or.inl hloads)
        · rename_i error hother hloads
          exact .undecodable hpath hlen hloads fun message heq => hother message heq
        · rename_i payload hloads
          split
          · rename_i message hparse
            exact .rejected hpath hlen (Or.inr ⟨payload, hloads, hparse⟩)
          · rename_i alerts hparse
            exact .accepted hpath hlen hloads hparse

/-! ## What a call has to do

The promise, in terms of the request and the store. None of it mentions the branches of `do_POST`,
and the two halves of `Answered`, for a request that carries a notification and for one that does
not, are exclusive. -/

/-- The request carries a notification of those alerts. -/
def Carries (loads : List UInt8 → Except LoadsError Json) (r : Request) (rfile : List UInt8)
    (alerts : List ReceivedAlert) : Prop :=
  startswith r.path "/webhook/" = true ∧ ∃ length payload, ReadLength r length ∧
    loads (rfile.take length.toNat) = .ok payload ∧ parseNotification payload = .ok alerts

/-- One response and no exception: the alerts of a notification are stored, all and in order,
    and counted in the response; anything else is a client error that leaves the store alone. -/
def Answered (loads : List UInt8 → Except LoadsError Json) (r : Request) (c : Connection)
    (out : Except Escaped Unit × Connection) : Prop :=
  out.1 = .ok () ∧ ∃ response, out.2.wfile = c.wfile ++ [response] ∧
    (∀ n, response = ⟨.ok, acceptedPayload n⟩ ↔
      ∃ alerts, Carries loads r c.rfile alerts ∧ alerts.length = n) ∧
    (∀ alerts, Carries loads r c.rfile alerts →
      out.2.store.capacity = c.store.capacity ∧
        out.2.store.Holds (c.store.items ++ alerts)) ∧
    ((∀ alerts, ¬ Carries loads r c.rfile alerts) →
      400 ≤ response.status.code ∧ response.status.code ≤ 499 ∧ out.2.store = c.store)

/-- The two kinds of request whose exception nothing catches. -/
def Uncaught (loads : List UInt8 → Except LoadsError Json) (r : Request)
    (rfile : List UInt8) : Prop :=
  startswith r.path "/webhook/" = true ∧
    (Python.int (r.contentLength.getD "0") = none ∨
      ∃ length error, ReadLength r length ∧ loads (rfile.take length.toNat) = .error error ∧
        ∀ message, error ≠ .jsonDecode message)

theorem ReadLength.unique {r : Request} {l l' : ℤ} (h : ReadLength r l) (h' : ReadLength r l') :
    l = l' :=
  Option.some.inj (h.1.symm.trans h'.1)

theorem Carries.unique {r : Request} {rfile : List UInt8} {alerts alerts' : List ReceivedAlert}
    (h : Carries loads r rfile alerts) (h' : Carries loads r rfile alerts') :
    alerts = alerts' := by
  obtain ⟨-, l, p, hl, hp, ha⟩ := h
  obtain ⟨-, l', p', hl', hp', ha'⟩ := h'
  cases hl.unique hl'
  cases hp.symm.trans hp'
  exact Except.ok.inj (ha.symm.trans ha')

/-- A refusal is right when the request carries no notification. -/
theorem answered_of_refusal {r : Request} {c out : Connection} {response : Response}
    (hwfile : out.wfile = c.wfile ++ [response]) (hstore : out.store = c.store)
    (hstatus : response.status ≠ .ok) (hno : ∀ alerts, ¬ Carries loads r c.rfile alerts) :
    Answered loads r c (.ok (), out) := by
  refine ⟨rfl, response, hwfile, ?_, ?_, ?_⟩
  · intro n
    constructor
    · rintro rfl
      exact absurd rfl hstatus
    · rintro ⟨alerts, hc, -⟩
      exact absurd hc (hno alerts)
  · intro alerts hc
    exact absurd hc (hno alerts)
  · intro _
    cases hcode : response.status with
    | ok => exact absurd hcode hstatus
    | badRequest => exact ⟨by decide, by decide, hstore⟩
    | notFound => exact ⟨by decide, by decide, hstore⟩

/-- A call returns exactly when the request is of neither kind. -/
theorem Posted.ok_iff {r : Request} {c : Connection} {out : Except Escaped Unit × Connection}
    (h : Posted loads r c out) : out.1 = .ok () ↔ ¬ Uncaught loads r c.rfile := by
  cases h with
  | noSuchPath hpath =>
    refine iff_of_true rfl ?_
    rintro ⟨hpath', -⟩
    cases hpath.symm.trans hpath'
  | badLength hpath hint =>
    exact iff_of_false (fun hok => nomatch hok) (not_not.mpr ⟨hpath, Or.inl hint⟩)
  | sizeRefused hpath hint hsize =>
    refine iff_of_true rfl ?_
    rintro ⟨-, hint' | ⟨l, -, hl, -⟩⟩
    · cases hint.symm.trans hint'
    · cases hint.symm.trans hl.1
      exact hsize hl.2
  | undecodable hpath hlen hloads hother =>
    exact iff_of_false (fun hok => nomatch hok)
      (not_not.mpr ⟨hpath, Or.inr ⟨_, _, hlen, hloads, hother⟩⟩)
  | rejected hpath hlen hreason =>
    refine iff_of_true rfl ?_
    rintro ⟨-, hint' | ⟨l, error, hl, hloads', hother⟩⟩
    · cases hlen.1.symm.trans hint'
    · cases hlen.unique hl
      -- A body that was refused has failed as `JSONDecodeError` or not at all.
      rcases hreason with hloads | ⟨payload, hloads, -⟩
      · cases hloads.symm.trans hloads'
        exact hother _ rfl
      · cases hloads.symm.trans hloads'
  | accepted hpath hlen hloads hparse =>
    refine iff_of_true rfl ?_
    rintro ⟨-, hint' | ⟨l, error, hl, hloads', -⟩⟩
    · cases hlen.1.symm.trans hint'
    · cases hlen.unique hl
      cases hloads.symm.trans hloads'

/-- A call that returns has answered. -/
theorem Posted.answered {r : Request} {c : Connection} {out : Except Escaped Unit × Connection}
    (h : Posted loads r c out) (hok : out.1 = .ok ()) : Answered loads r c out := by
  cases h with
  | noSuchPath hpath =>
    refine answered_of_refusal rfl rfl HTTPStatus.noConfusion ?_
    rintro alerts ⟨hpath', -⟩
    cases hpath.symm.trans hpath'
  | badLength => cases hok
  | sizeRefused hpath hint hsize =>
    refine answered_of_refusal rfl rfl HTTPStatus.noConfusion ?_
    rintro alerts ⟨-, l, -, hl, -⟩
    cases hint.symm.trans hl.1
    exact hsize hl.2
  | undecodable => cases hok
  | rejected hpath hlen hreason =>
    refine answered_of_refusal rfl rfl HTTPStatus.noConfusion ?_
    rintro alerts ⟨-, l, p, hl, hp, ha⟩
    cases hlen.unique hl
    rcases hreason with hloads | ⟨payload, hloads, hparse⟩
    · cases hloads.symm.trans hp
    · cases hloads.symm.trans hp
      cases hparse.symm.trans ha
  | @accepted length payload alerts hpath hlen hloads hparse =>
    -- This is the only case in which the store changes.
    have hcarries : Carries loads r c.rfile alerts :=
      ⟨hpath, length, payload, hlen, hloads, hparse⟩
    refine ⟨rfl, _, rfl, ?_, ?_, ?_⟩
    · intro n
      constructor
      · intro heq
        refine ⟨alerts, hcarries, ?_⟩
        simpa [acceptedPayload] using heq
      · rintro ⟨alerts', hc', hn⟩
        rw [← hn, hcarries.unique hc']
    · intro alerts' hc'
      cases hcarries.unique hc'
      exact ⟨AlertStore.capacity_addAll c.store alerts, c.store.holds_items.addAll alerts⟩
    · intro hno
      exact absurd hcarries (hno alerts)

/-- **`do_POST` answers a request exactly when it is of neither kind.** -/
theorem doPost_answered_iff (loads : List UInt8 → Except LoadsError Json) (r : Request)
    (c : Connection) :
    Answered loads r c (doPost loads r c) ↔ ¬ Uncaught loads r c.rfile := by
  have hposted := doPost_cases loads r c
  constructor
  · rintro ⟨hok, -⟩
    exact hposted.ok_iff.mp hok
  · intro hcaught
    exact hposted.answered (hposted.ok_iff.mpr hcaught)

/-- What a call takes off the stream: the body of a request to the webhook with a length that
    is read, and of no other. -/
theorem Posted.rfile {r : Request} {c : Connection} {out : Except Escaped Unit × Connection}
    (h : Posted loads r c out) :
    (∃ length, startswith r.path "/webhook/" = true ∧ ReadLength r length ∧
      out.2.rfile = c.rfile.drop length.toNat) ∨
    ((startswith r.path "/webhook/" = true → ∀ length, ¬ ReadLength r length) ∧
      out.2.rfile = c.rfile) := by
  cases h with
  | noSuchPath hpath =>
    refine Or.inr ⟨?_, rfl⟩
    intro hpath'
    cases hpath.symm.trans hpath'
  | badLength hpath hint =>
    refine Or.inr ⟨?_, rfl⟩
    intro _ length hl
    cases hint.symm.trans hl.1
  | sizeRefused hpath hint hsize =>
    refine Or.inr ⟨?_, rfl⟩
    intro _ length hl
    cases hint.symm.trans hl.1
    exact hsize hl.2
  | undecodable hpath hlen _ _ => exact Or.inl ⟨_, hpath, hlen, rfl⟩
  | rejected hpath hlen _ => exact Or.inl ⟨_, hpath, hlen, rfl⟩
  | accepted hpath hlen _ _ => exact Or.inl ⟨_, hpath, hlen, rfl⟩

end Post

/-! ## One request of each kind

The shortest body that is no text: the length is read, the byte is read, and then nothing is
sent. -/

/-- A connection to an empty store, with nothing read or answered yet. -/
def freshConnection (rfile : List UInt8) : Connection :=
  ⟨⟨defaultCapacity, [], by decide, by decide⟩, rfile, [], []⟩

/-- `json.loads` on the one byte `0xFF`, and on no bytes at all. -/
def loadsNoText : List UInt8 → Except LoadsError Json
  | [0xFF] => .error (.unicodeDecode
      "'utf-8' codec can't decode byte 0xff in position 0: invalid start byte")
  | _ => .error (.jsonDecode "Expecting value: line 1 column 1 (char 0)")

theorem garbage_escapes :
    ¬ @Answered latin1 loadsNoText ⟨"/webhook/pager", some "1"⟩ (freshConnection [0xFF])
        (@doPost latin1 loadsNoText ⟨"/webhook/pager", some "1"⟩ (freshConnection [0xFF])) ∧
      ¬ @Answered latin1 loadsNoText ⟨"/webhook/pager", some "12kB"⟩ (freshConnection [])
        (@doPost latin1 loadsNoText ⟨"/webhook/pager", some "12kB"⟩ (freshConnection [])) := by
  constructor
  · rintro ⟨hok, -⟩
    cases hok
  · rintro ⟨hok, -⟩
    cases hok

end AlertSink
end ObservabilityStack
