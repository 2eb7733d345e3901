import ObservabilityStack.AlertSink.Linearization

/-!
# Handlers that wait for their client

A `Job` has the bytes behind the head of its request as data. On a socket they come when the client
sends them: `rfile.read(length)` returns when `length` bytes have arrived, or when the client has
closed its side, and it has no timeout. Until then the thread of that connection stands still, and
it may do so for ever. So what a handler of the sink can promise has a condition, and the condition
is about the client and not about the other handlers.

`ThreadingServer` puts this in front of `Sink`. A connection whose head has been parsed is
`Incoming` up to the end of `rfile.read`, and a thread of `Sink` from then on, with the bytes that
were there at that moment. Nothing is shared before the body has been read: a handler takes the
lock, writes and answers only as a thread of `Sink`. That makes this layer thin, and `Run.sink`
says all there is to say about it, namely that the sink behind it makes a run of `Sink`.

Two things are left out. A connection that breaks ends `rfile.read` with an exception, and with it
the thread, which has touched nothing. And the answer is written to a socket that takes it.

The steps of the clients are unconstrained. They send what they like in pieces of any size, and
close or do not close. A result about the steps of the handlers is then one for every behaviour of
the clients, and can say what it needs from them by looking at what has arrived.
-/

set_option autoImplicit false

namespace ObservabilityStack
namespace AlertSink

open Python (Json startswith)
open Python.HttpServer
open Transition

/-- How many bytes the handler asks of `rfile`. `do_GET` and the early answers ask for none. -/
def wanted [Unicode] (head : Head) : ℕ :=
  if head.command = "GET" then 0
  else if ¬ startswith (Request.ofHead head).path "/webhook/" then 0
  else
    match Python.int ((Request.ofHead head).contentLength.getD "0") with
    | none => 0
    | some length => if length ≤ 0 ∨ length > maxBodyBytes then 0 else length.toNat

/-- A connection whose handler has been called, and has not read the body. -/
structure Incoming where
  head : Head
  received : List UInt8
  /-- the client has closed its side -/
  closed : Bool

/-- `rfile.read` has what it asks for, or will not get more. -/
def Incoming.ready [Unicode] (c : Incoming) : Bool :=
  c.closed || decide (wanted c.head ≤ c.received.length)

def Incoming.job (c : Incoming) : Job := ⟨c.head, c.received⟩

/-- What arrives after the body is not read by this handler. -/
theorem plan_append [Unicode] (loads : List UInt8 → Except LoadsError Json) {head : Head}
    {received : List UInt8} (h : wanted head ≤ received.length) (more : List UInt8) :
    plan loads ⟨head, received ++ more⟩ = plan loads ⟨head, received⟩ := by
  unfold wanted at h
  unfold plan planPost
  by_cases hget : head.command = "GET"
  · rw [if_pos hget, if_pos hget]
  · rw [if_neg hget] at h
    rw [if_neg hget, if_neg hget]
    by_cases hpath : ¬ startswith (Request.ofHead head).path "/webhook/" = true
    · rw [if_pos hpath, if_pos hpath]
    · rw [if_neg hpath] at h
      rw [if_neg hpath, if_neg hpath]
      dsimp only
      cases hint : Python.int ((Request.ofHead head).contentLength.getD "0") with
      | none => rfl
      | some length =>
        rw [hint] at h
        dsimp only at h ⊢
        by_cases hlength : length ≤ 0 ∨ length > maxBodyBytes
        · rw [if_pos hlength, if_pos hlength]
        · rw [if_neg hlength] at h
          rw [if_neg hlength, if_neg hlength, List.take_append_of_le_length h]

/-- The connections whose requests are not complete yet, and the server behind them. -/
structure ThreadingServer where
  incoming : List Incoming
  sink : Sink

namespace ThreadingServer

def start (store : AlertStore) : ThreadingServer := ⟨[], .start store⟩

inductive Action
  | accept (head : Head)
  | receive (k : ℕ) (bytes : List UInt8)
  | close (k : ℕ)
  /-- `rfile.read` returns -/
  | read (k : ℕ)
  | step (i : ℕ)

section Next

variable [Unicode] (loads : List UInt8 → Except LoadsError Json)

/-- Clients send bytes and hang up; a handler whose `read` can return has its request, and the
    rest is as for the server without clients. -/
def next (v : ThreadingServer) : Action → Option ThreadingServer
  | .accept head => some { v with incoming := v.incoming ++ [⟨head, [], false⟩] }
  | .receive k bytes =>
      match v.incoming[k]? with
      | none => none
      | some c =>
          if c.closed then none
          else
            some { v with
              incoming := v.incoming.set k { c with received := c.received ++ bytes } }
  | .close k =>
      match v.incoming[k]? with
      | none => none
      | some c => some { v with incoming := v.incoming.set k { c with closed := true } }
  | .read k =>
      match v.incoming[k]? with
      | none => none
      | some c =>
          if c.ready then
            (Sink.next loads v.sink (.arrive c.job)).map fun sink => ⟨v.incoming.eraseIdx k, sink⟩
          else none
  | .step i => (Sink.next loads v.sink (.step i)).map fun sink => { v with sink := sink }

def Run (store : AlertStore) (as : List Action) (v : ThreadingServer) : Prop :=
  Steps (next loads) Anywhere (start store) as v

end Next

section Step

variable [Unicode] {loads : List UInt8 → Except LoadsError Json} {v v' : ThreadingServer}

/-- **Behind the clients there is the sink.** -/
theorem Run.sink {store : AlertStore} {as : List Action} (h : Run loads store as v) :
    ∃ bs, Sink.Run loads store bs v.sink := by
  refine (h.simulate (I := fun _ => True) ThreadingServer.sink trivial ?_).2
  intro v a v' _ _ hn
  refine ⟨trivial, ?_⟩
  cases a with
  | accept head =>
    cases hn
    exact ⟨[], .refl⟩
  | receive k bytes =>
    simp only [next] at hn
    split at hn
    · cases hn
    · split at hn <;> cases hn
      exact ⟨[], .refl⟩
  | close k =>
    simp only [next] at hn
    split at hn <;> cases hn
    exact ⟨[], .refl⟩
  | read k =>
    simp only [next] at hn
    split at hn
    · cases hn
    · split at hn <;> cases hn
      exact ⟨[.arrive _], .single trivial rfl⟩
  | step i =>
    obtain ⟨sink, hnext, rfl⟩ := Option.map_eq_some_iff.mp hn
    exact ⟨[.step i], .single trivial hnext⟩

end Step

end ThreadingServer
end AlertSink
end ObservabilityStack
