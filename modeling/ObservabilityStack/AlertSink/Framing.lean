import ObservabilityStack.AlertSink.Answers
import ObservabilityStack.Lib.Transition
import ObservabilityStack.Python.HttpMessage

/-!
# Requests on one keep-alive connection

`handle` calls `handle_one_request` until the connection is to be closed. Every call looks for
the head of the next request where the call before it left the stream, so a request stays whole
only if its handler has read its body to the end. `do_POST` does on one path, the one that
reaches `rfile.read`. `do_GET` never reads a body, and the two early answers of `do_POST` leave
it where it is: the server then takes the client's data for its next request.

A step is one call of `handle_one_request`. Between two of them other connections may change
the store, so the action of a step is the store it finds.

On such a connection an answer is only worth something if it answers the request that was sent. So
the property, `Framed`, is about the list of the requests that were dispatched, and says that it is
a beginning of the list of those that were sent; the bytes of a body never become a request. The
condition can be read off the messages, one by one, and off nothing that the server computes.

The length of a body is announced correctly by every `Message`. A client that announces another
length than it sends desynchronises its own connection, and no server could know better.
-/

set_option autoImplicit false

namespace ObservabilityStack
namespace AlertSink

open Python (Json startswith latin1)
open Python.HttpServer
open Transition

structure Serving where
  conn : Connection
  dispatched : List Head
  closing : Option (Closing Escaped)

def Serving.start (store : AlertStore) (rfile : List UInt8) : Serving :=
  ⟨⟨store, rfile, [], []⟩, [], none⟩

/-- What the handlers read of a parsed head. -/
def Request.ofHead (head : Head) : Request := ⟨head.path, field head.fields "Content-Length"⟩

/-- The commands the handler class has a method for. -/
def commands : List String := ["GET", "POST"]

section Serve

variable [Unicode] (loads : List UInt8 → Except LoadsError Json)

/-- `getattr(self, 'do_' + self.command)()` -/
def dispatch (head : Head) (c : Connection) : Except Escaped Unit × Connection :=
  if head.command = "GET" then doGet (Request.ofHead head) c
  else doPost loads (Request.ofHead head) c

/-- `handle_one_request`. -/
def handleOneRequest (s : Serving) : Serving :=
  match parseRequest commands s.conn.rfile with
  | .failed why => { s with closing := some why }
  | .head head close rest =>
      let r := dispatch loads head { s.conn with rfile := rest }
      { conn := r.2
        dispatched := s.dispatched ++ [head]
        closing := match r.1 with
          | .error exc => some (.raised exc)
          | .ok () => if close then some .asked else none }

/-- One turn of the loop in `handle`, with the store the other connections have left. -/
def serve (s : Serving) (store : AlertStore) : Option Serving :=
  if s.closing.isSome then none
  else some (handleOneRequest loads { s with conn := { s.conn with store := store } })

/-! ## The property -/

/-- In every state of every run on the bytes of those messages: the requests dispatched so far
    are the first ones that were sent; while the connection is open, the next head is looked for
    exactly behind the last of them; and the input is used up only when all were dispatched. -/
def Framed (messages : List Message) : Prop :=
  ∀ store stores s,
    Steps (serve loads) Anywhere (.start store (messages.flatMap Message.encode)) stores s →
      s.dispatched = (messages.take s.dispatched.length).map Message.head ∧
      (s.closing = none →
        s.conn.rfile = (messages.drop s.dispatched.length).flatMap Message.encode) ∧
      (s.dispatched.length < messages.length → s.closing ≠ some .endOfInput)

/-- The connection does not outlive the message: its head is refused, it asks for the end, or
    its handler ends in an exception. -/
def EndsConnection (m : Message) : Prop :=
  m.Oversized ∨ closeConnection m.head.fields false = true ∨
    (m.method = .post ∧ Uncaught loads (Request.ofHead m.head) m.body)

/-- The body is empty, or sent to the webhook and not too large. -/
def BodyIsRead (m : Message) : Prop :=
  m.body = [] ∨ (m.method = .post ∧ startswith m.head.path "/webhook/" = true ∧
    (m.body.length : ℤ) ≤ maxBodyBytes)

/-- Up to the first message that ends the connection, every body is read. -/
def BodiesAreRead : List Message → Prop
  | [] => True
  | m :: messages => EndsConnection loads m ∨ (BodyIsRead m ∧ BodiesAreRead messages)

/-! ## One message

What a handler takes off the stream is known from `Posted.rfile`. Against a message at the front of
the stream there are two cases: it has taken the whole body, or nothing of it. -/

omit [Unicode] in
theorem doGet_frame (r : Request) (c : Connection) :
    (doGet r c).1 = .ok () ∧ (doGet r c).2.rfile = c.rfile := by
  unfold doGet
  split
  · exact ⟨rfl, rfl⟩
  · split
    · exact ⟨rfl, rfl⟩
    · split
      · exact ⟨rfl, rfl⟩
      · exact ⟨rfl, rfl⟩

/-- The length a handler is given is the length of the body, or cannot be read at all. -/
theorem int_contentLength (m : Message) :
    Python.int ((Request.ofHead m.head).contentLength.getD "0") = some (m.body.length : ℤ) ∨
      Python.int ((Request.ofHead m.head).contentLength.getD "0") = none := by
  have hframed := m.framed
  unfold Request.ofHead Message.head
  dsimp only
  cases hfield : field (m.fields.map Field.text) "Content-Length" with
  | none =>
    rw [hfield] at hframed
    have hbody : m.body = [] := hframed
    rw [hbody]
    exact int_of_isDecimal ⟨[], ['0'], [], rfl, by simp, by simp, by simp,
      List.all_iff_forall_prop.mp (by decide), rfl⟩
  | some text =>
    rw [hfield] at hframed
    exact int_of_isDecimal hframed

theorem ReadLength.eq_length {m : Message} {length : ℤ}
    (h : ReadLength (Request.ofHead m.head) length) : length = m.body.length := by
  rcases int_contentLength m with hint | hint
  · exact Option.some.inj (h.1.symm.trans hint)
  · cases h.1.symm.trans hint

theorem uncaught_append (m : Message) (rest : List UInt8) :
    Uncaught loads (Request.ofHead m.head) (m.body ++ rest) ↔
      Uncaught loads (Request.ofHead m.head) m.body := by
  have htake : ∀ {length : ℤ}, ReadLength (Request.ofHead m.head) length →
      (m.body ++ rest).take length.toNat = m.body.take length.toNat := by
    intro length hl
    rw [hl.eq_length, Int.toNat_natCast, List.take_left, List.take_length]
  unfold Uncaught
  refine and_congr_right fun _ => or_congr_right ?_
  constructor
  · rintro ⟨length, error, hl, hloads, hother⟩
    exact ⟨length, error, hl, htake hl ▸ hloads, hother⟩
  · rintro ⟨length, error, hl, hloads, hother⟩
    exact ⟨length, error, hl, (htake hl).symm ▸ hloads, hother⟩

/-- A handler that returns has read the body, or has left all of it. -/
theorem dispatch_rfile (m : Message) (c : Connection) (rest : List UInt8)
    (hr : c.rfile = m.body ++ rest) :
    ((dispatch loads m.head c).1 = .ok () ↔
      ¬ (m.method = .post ∧ Uncaught loads (Request.ofHead m.head) m.body)) ∧
    ((dispatch loads m.head c).1 = .ok () →
      (BodyIsRead m → (dispatch loads m.head c).2.rfile = rest) ∧
      (¬ BodyIsRead m → (dispatch loads m.head c).2.rfile = m.body ++ rest)) := by
  unfold dispatch
  cases hm : m.method with
  | get =>
    obtain ⟨hok, hrfile⟩ := doGet_frame (Request.ofHead m.head) c
    rw [if_pos (show m.head.command = "GET" by simp [Message.head, hm, Method.text])]
    refine ⟨iff_of_true hok fun h => (nomatch h.1), fun _ => ⟨?_, ?_⟩⟩
    · rintro (hnil | ⟨hpost, -⟩)
      · rw [hrfile, hr, hnil, List.nil_append]
      · cases hm.symm.trans hpost
    · intro _
      rw [hrfile, hr]
  | post =>
    rw [if_neg (show ¬ m.head.command = "GET" by simp [Message.head, hm, Method.text])]
    have hposted := doPost_cases loads (Request.ofHead m.head) c
    have hok := hposted.ok_iff
    rw [hr, uncaught_append] at hok
    refine ⟨by simpa using hok, ?_⟩
    intro hreturn
    -- What is left on the connection depends only on whether `rfile.read` was reached.
    rcases hposted.rfile with ⟨length, hpath, hl, hrfile⟩ | ⟨hno, hrfile⟩
    · -- `rfile.read` was reached, so the length was in range and all of it is gone.
      have hlen := hl.eq_length
      refine ⟨fun _ => ?_, fun hleft => absurd ?_ hleft⟩
      · rw [hrfile, hr, hlen, Int.toNat_natCast, List.drop_left]
      · exact Or.inr ⟨hm, hpath, hlen ▸ hl.2.2⟩
    · refine ⟨?_, fun _ => by rw [hrfile, hr]⟩
      rintro (hnil | ⟨-, hpath, hsize⟩)
      · rw [hrfile, hr, hnil, List.nil_append]
      · rcases int_contentLength m with hint | hint
        · -- A body that is small enough was left only because it is empty.
          by_cases hpos : 1 ≤ (m.body.length : ℤ)
          · exact absurd ⟨hint, hpos, hsize⟩ (hno hpath _)
          · have hnil : m.body = [] := List.length_eq_zero_iff.mp (by omega)
            rw [hrfile, hr, hnil, List.nil_append]
        · exact absurd ⟨hpath, Or.inl hint⟩ (hok.mp hreturn)

/-- What one call does with the message it finds on the stream. -/
theorem handle_message (s : Serving) (m : Message) (rest : List UInt8)
    (hr : s.conn.rfile = m.encode ++ rest) :
    (EndsConnection loads m ∧
      ((handleOneRequest loads s).dispatched = s.dispatched ∨
        (handleOneRequest loads s).dispatched = s.dispatched ++ [m.head]) ∧
      ∃ why, (handleOneRequest loads s).closing = some why ∧ why ≠ .endOfInput) ∨
    (¬ EndsConnection loads m ∧
      (handleOneRequest loads s).dispatched = s.dispatched ++ [m.head] ∧
      (handleOneRequest loads s).closing = none ∧
      (BodyIsRead m → (handleOneRequest loads s).conn.rfile = rest) ∧
      (¬ BodyIsRead m → (handleOneRequest loads s).conn.rfile = m.body ++ rest)) := by
  unfold handleOneRequest
  rw [hr]
  rcases parseRequest_encode (ε := Escaped) m rest with ⟨hbig, code, hparse⟩ | ⟨hbig, hparse⟩
  · rw [show parseRequest commands (m.encode ++ rest) = .failed (.refused code) from hparse]
    exact Or.inl ⟨Or.inl hbig, Or.inl rfl, _, rfl, fun h => nomatch h⟩
  · rw [show parseRequest commands (m.encode ++ rest) = .head _ _ _ from hparse]
    dsimp only
    obtain ⟨hok, hrfile⟩ := dispatch_rfile loads m
      { s.conn with rfile := m.body ++ rest } rest rfl
    cases hout : (dispatch loads m.head { s.conn with rfile := m.body ++ rest }).1 with
    | error exc =>
      -- `handle_one_request` does not catch: the exception ends the connection.
      have hraises : m.method = .post ∧ Uncaught loads (Request.ofHead m.head) m.body := by
        by_contra hno
        cases hout.symm.trans (hok.mpr hno)
      exact Or.inl ⟨Or.inr (Or.inr hraises), Or.inr rfl, _, rfl, fun h => nomatch h⟩
    | ok u =>
      have hreturns := hok.mp hout
      -- The answer is out; the client may have asked to close all the same.
      by_cases hclose : closeConnection m.head.fields false = true
      · rw [hclose]
        exact Or.inl ⟨Or.inr (Or.inl hclose), Or.inr rfl, _, rfl, fun h => nomatch h⟩
      · refine Or.inr ⟨?_, rfl, ?_, hrfile hout⟩
        · rintro (h | h | h)
          · exact hbig h
          · exact hclose h
          · exact hreturns h
        · rw [Bool.eq_false_iff.mpr hclose]
          rfl

/-! ## Every run

The invariant `Between` is that the stream is at a boundary of two messages. It is kept as long as
bodies are read; the first message whose body is not read and that does not end the connection
breaks it, and with it the property, since the next call looks for a head inside that body. -/

/-- Some of the messages are behind the stream's position and the others ahead of it. -/
def Between (messages : List Message) (s : Serving) : Prop :=
  ∃ done todo, messages = done ++ todo ∧ s.dispatched = done.map Message.head ∧
    (s.closing = none →
      s.conn.rfile = todo.flatMap Message.encode ∧ BodiesAreRead loads todo) ∧
    (todo ≠ [] → s.closing ≠ some .endOfInput)

theorem Between.step {messages : List Message} {s s' : Serving} {store : AlertStore}
    (h : Between loads messages s) (hs : serve loads s store = some s') :
    Between loads messages s' := by
  obtain ⟨done, todo, hmessages, hdispatched, hopen, -⟩ := h
  unfold serve at hs
  split at hs
  · cases hs
  · rename_i hclosed
    cases hs
    obtain ⟨hrfile, hread⟩ := hopen (by simpa using hclosed)
    cases todo with
    | nil =>
      -- The end of the input: `readline` returns nothing.
      refine ⟨done, [], hmessages, ?_, ?_, fun hne => absurd rfl hne⟩
      · unfold handleOneRequest
        rw [show ({ s.conn with store := store } : Connection).rfile = [] from hrfile]
        exact hdispatched
      · intro hnone
        unfold handleOneRequest at hnone
        rw [show ({ s.conn with store := store } : Connection).rfile = [] from hrfile] at hnone
        cases hnone
    | cons m todo =>
      rcases handle_message loads { s with conn := { s.conn with store := store } } m
        (todo.flatMap Message.encode) hrfile with
        ⟨-, hsent, why, hwhy, hne⟩ | ⟨hgoes, hsent, hnone, hgone, -⟩
      · have hends : ∀ todo' : List Message, todo' ≠ [] →
            (handleOneRequest loads { s with conn := { s.conn with store := store } }).closing ≠
              some .endOfInput := by
          intro todo' _ heq
          exact hne (Option.some.inj (hwhy.symm.trans heq))
        -- The connection is closing: nothing is asked of what is left on the stream.
        have hopen' : ∀ {P : Prop},
            (handleOneRequest loads { s with conn := { s.conn with store := store } }).closing =
              none → P := by
          intro P heq
          cases hwhy.symm.trans heq
        rcases hsent with hsent | hsent
        · exact ⟨done, m :: todo, hmessages, hsent.trans hdispatched, hopen', hends _⟩
        · refine ⟨done ++ [m], todo, by simp [hmessages], ?_, hopen', hends _⟩
          rw [hsent, List.map_append]
          exact congrArg (· ++ [m.head]) hdispatched
      · rcases hread with hend | ⟨hbody, hread⟩
        · exact absurd hend hgoes
        · -- The body was read, so the stream starts with the next message.
          refine ⟨done ++ [m], todo, by simp [hmessages], ?_, fun _ => ⟨hgone hbody, hread⟩, ?_⟩
          · rw [hsent, List.map_append]
            exact congrArg (· ++ [m.head]) hdispatched
          · intro _ heq
            cases hnone.symm.trans heq

theorem serve_open {s : Serving} (store : AlertStore) (hopen : s.closing = none) :
    serve loads s store =
      some (handleOneRequest loads { s with conn := { s.conn with store := store } }) := by
  unfold serve
  rw [hopen]
  rfl

/-- A run whose messages all stay on the connection and are read leads behind them. -/
theorem reaches_behind (store : AlertStore) {done : List Message} {s : Serving}
    {rest : List UInt8} (hdone : ∀ m ∈ done, ¬ EndsConnection loads m ∧ BodyIsRead m)
    (hopen : s.closing = none) (hr : s.conn.rfile = done.flatMap Message.encode ++ rest) :
    ∃ stores s', Steps (serve loads) Anywhere s stores s' ∧ s'.closing = none ∧
      s'.dispatched.length = s.dispatched.length + done.length ∧ s'.conn.rfile = rest := by
  induction done generalizing s with
  | nil => exact ⟨[], s, .refl, hopen, rfl, hr⟩
  | cons m done ih =>
    obtain ⟨hgoes, hbody⟩ := hdone m List.mem_cons_self
    rw [List.flatMap_cons, List.append_assoc] at hr
    rcases handle_message loads { s with conn := { s.conn with store := store } } m
      (done.flatMap Message.encode ++ rest) hr with
      ⟨hend, -⟩ | ⟨-, hsent, hnone, hgone, -⟩
    · exact absurd hend hgoes
    · obtain ⟨stores, s', hrun, hopen', hlen, hrest⟩ :=
        ih (fun m' hm' => hdone m' (List.mem_cons_of_mem _ hm')) hnone (hgone hbody)
      refine ⟨[store] ++ stores, s',
        Steps.trans (.single trivial (serve_open loads store hopen)) hrun, hopen', ?_, hrest⟩
      rw [hlen, hsent, List.length_append, List.length_cons]
      show s.dispatched.length + 1 + done.length = s.dispatched.length + (done.length + 1)
      omega

/-- The first body that is neither read nor followed by the end of the connection. -/
theorem exists_unread {messages : List Message} (h : ¬ BodiesAreRead loads messages) :
    ∃ done m todo, messages = done ++ m :: todo ∧
      (∀ m' ∈ done, ¬ EndsConnection loads m' ∧ BodyIsRead m') ∧
      ¬ EndsConnection loads m ∧ ¬ BodyIsRead m := by
  induction messages with
  | nil => exact absurd trivial h
  | cons m messages ih =>
    have hgoes : ¬ EndsConnection loads m := fun hend => h (Or.inl hend)
    by_cases hbody : BodyIsRead m
    · obtain ⟨done, m', todo, rfl, hdone, hrest⟩ := ih fun hread => h (Or.inr ⟨hbody, hread⟩)
      refine ⟨m :: done, m', todo, rfl, ?_, hrest⟩
      intro m'' hm''
      rcases List.mem_cons.mp hm'' with rfl | hm''
      · exact ⟨hgoes, hbody⟩
      · exact hdone m'' hm''
    · exact ⟨[], m, messages, rfl, by simp, hgoes, hbody⟩

/-- A body that is left on the stream ends up where the next head is looked for. -/
theorem not_framed_of_unread {messages : List Message} (h : ¬ BodiesAreRead loads messages) :
    ¬ Framed loads messages := by
  intro hframed
  obtain ⟨done, m, todo, rfl, hdone, hgoes, hbody⟩ := exists_unread loads h
  let store : AlertStore := ⟨defaultCapacity, [], by decide, by decide⟩
  have hstart : (Serving.start store ((done ++ m :: todo).flatMap Message.encode)).conn.rfile =
      done.flatMap Message.encode ++ (m.encode ++ todo.flatMap Message.encode) := by
    show (done ++ m :: todo).flatMap Message.encode = _
    rw [List.flatMap_append, List.flatMap_cons]
  obtain ⟨stores, s, hrun, hopen, hlen, hr⟩ := reaches_behind loads store hdone rfl hstart
  -- The next call dispatches `m` and stops in front of its body.
  rcases handle_message loads { s with conn := { s.conn with store := store } } m
    (todo.flatMap Message.encode) hr with ⟨hend, -⟩ | ⟨-, hsent, hnone, -, hleft⟩
  · exact hgoes hend
  · obtain ⟨-, hstream, -⟩ :=
      hframed store _ _ (hrun.snoc trivial (serve_open loads store hopen))
    have hcount : (handleOneRequest loads
        { s with conn := { s.conn with store := store } }).dispatched.length =
          done.length + 1 := by
      rw [hsent, List.length_append, List.length_singleton]
      show s.dispatched.length + 1 = _
      rw [hlen]
      show 0 + done.length + 1 = _
      omega
    have hbodyNil : m.body = [] := by
      have heq := (hleft hbody).symm.trans (hstream hnone)
      have hdrop : (done ++ m :: todo).drop (done.length + 1) = todo := by
        rw [← List.drop_drop, List.drop_left]
        rfl
      rw [hcount, hdrop] at heq
      exact List.append_cancel_right (show m.body ++ _ = [] ++ _ from heq)
    exact hbody (Or.inl hbodyNil)

theorem Between.run {messages : List Message} {store : AlertStore} {stores : List AlertStore}
    {s : Serving} (hread : BodiesAreRead loads messages)
    (h : Steps (serve loads) Anywhere (.start store (messages.flatMap Message.encode)) stores s) :
    Between loads messages s := by
  refine h.invariant (I := Between loads messages) ?_ ?_
  · exact ⟨[], messages, rfl, rfl, fun _ => ⟨rfl, hread⟩, fun _ h => nomatch h⟩
  · intro s store s' hs _ hnext
    exact hs.step loads hnext

/-- **Requests stay whole exactly when, up to the first one that ends the connection, every
    body is empty or read.** -/
theorem framed_iff_bodies_read (messages : List Message) :
    Framed loads messages ↔ BodiesAreRead loads messages := by
  constructor
  · intro hframed
    by_contra hunread
    exact not_framed_of_unread loads hunread hframed
  · intro hread store stores s hrun
    obtain ⟨done, todo, rfl, hdispatched, hopen, hend⟩ := Between.run loads hread hrun
    have hlen : s.dispatched.length = done.length := by
      rw [hdispatched, List.length_map]
    rw [hlen, List.take_left, List.drop_left]
    refine ⟨hdispatched, fun hnone => (hopen hnone).1, ?_⟩
    intro hlt
    refine hend ?_
    rintro rfl
    rw [List.append_nil] at hlt
    exact lt_irrefl _ hlt

end Serve

/-! ## A body that is taken for a request

The body of a request to no endpoint is itself a request, and is answered. -/

def contentLength24 : Field :=
  ⟨[67, 111, 110, 116, 101, 110, 116, 45, 76, 101, 110, 103, 116, 104], [50, 52],
    by decide, List.all_iff_forall_prop.mp (by decide),
    List.all_iff_forall_prop.mp (by decide)⟩

/-- `GET /alerts HTTP/1.1` and an empty line, sent as the body of a `POST` to `/nope`. -/
def smuggler : Message where
  method := .post
  target := [47, 110, 111, 112, 101]
  fields := [contentLength24]
  body := [71, 69, 84, 32, 47, 97, 108, 101, 114, 116, 115, 32, 72, 84, 84, 80, 47, 49, 46, 49,
    13, 10, 13, 10]
  target_ne := by decide
  target_visible := List.all_iff_forall_prop.mp (by decide)
  framed := by
    rw [show field ([contentLength24].map Field.text) "Content-Length" = some "24" by decide]
    exact ⟨[], ['2', '4'], [], by decide, by simp, by simp, by simp,
      List.all_iff_forall_prop.mp (by decide), by decide⟩

theorem unread_body_is_dispatched :
    ∃ store s, Steps (@serve latin1 loadsNoText) Anywhere
        (.start store ([smuggler].flatMap Message.encode)) [store, store] s ∧
      s.dispatched.map Head.path = ["/nope", "/alerts"] ∧
      ¬ @Framed latin1 loadsNoText [smuggler] := by
  let store : AlertStore := ⟨defaultCapacity, [], by decide, by decide⟩
  let s₀ : Serving := .start store ([smuggler].flatMap Message.encode)
  have hstart : Steps (@serve latin1 loadsNoText) Anywhere s₀ [] s₀ := .refl
  have hrun := (hstart.snoc trivial (@serve_open latin1 loadsNoText s₀ store rfl)).snoc trivial
    (@serve_open latin1 loadsNoText _ store (by decide))
  refine ⟨store, _, hrun, by decide, ?_⟩
  intro hframed
  exact absurd (congrArg List.length (hframed store _ _ hrun).1) (by decide)

end AlertSink
end ObservabilityStack
