import Mathlib.Logic.Function.Basic
import Dotdns.Lib.Frame
import Dotdns.Lib.Run
import Dotdns.Config
import Dotdns.Upstream.Error

/-!
# Upstream — DNS over TLS

`DotUpstream` keeps idle connections for reuse. A query takes one out of
the pool, or opens one, writes its framed message, reads one framed reply
and puts the connection back; any failure on the way, a timeout included,
drops the connection.

One step of the system is what happens between two points where a query
waits: bytes may be written and read in pieces of any size, and every wait
may end with a timeout. A connection's peer is the environment: what it
sends is a `reply` step.
-/

namespace Dotdns

open Lib

/-- `DOT_MAX_IDLE_PER_ENDPOINT`. -/
def dotMaxIdlePerEndpoint : Nat := 8

/-- `DOT_IDLE_MAX_AGE`. -/
def dotIdleMaxAge : Nat := Duration.fromSecs 30

/-- `Display` of an error. -/
def UpstreamError.display : UpstreamError → Str
  | .network detail => "network error: ".toList ++ detail
  | .timeout => "timeout".toList
  | .invalidResponse detail => "invalid response: ".toList ++ detail
  | .serialization detail => "serialization error: ".toList ++ detail
  | .allFailed => "all upstreams failed".toList
  | .unsupportedFeature detail => "unsupported feature: ".toList ++ detail

/-! ## Connections -/

/-- A TLS connection: the two byte streams. -/
structure DotConn where
  endpoint : SocketAddr
  /-- The bytes written to the peer. -/
  sent : List UInt8 := []
  /-- The bytes of replies that have not been read. -/
  inbound : List UInt8 := []
  /-- The messages the peer has sent, in order. -/
  replies : List (List UInt8) := []
  /-- Ghost: the queries written whole, in order, with the call each is
  from. -/
  queries : List (Nat × List UInt8) := []
  deriving DecidableEq, Repr

/-- Connections that wait for reuse, per endpoint, each with the time it
was returned; the last one returned comes first. -/
abbrev DotIdlePool := SocketAddr → List (Nat × Nat)

/-- The loop of `checkout`: connections that are too old are dropped. -/
def popFresh (now : Nat) : List (Nat × Nat) → Option Nat × List (Nat × Nat)
  | [] => (none, [])
  | (conn, since) :: conns =>
      if now - since < dotIdleMaxAge then (some conn, conns) else popFresh now conns

/-! ## Calls -/

/-- Where a `query` call stands. The endpoint is the one of the running
`query_endpoint`; `pooled` says that the connection is from the pool. -/
inductive DotPhase where
  /-- Before `idle.lock().await` of `checkout`. -/
  | checkout (endpoint : SocketAddr)
  | connect (endpoint : SocketAddr)
  /-- `exchange`, with what is left to write of the length and the message. -/
  | write (endpoint : SocketAddr) (conn : Nat) (pooled : Bool) (left : List UInt8)
  /-- `exchange`, with what has been read of the length and the reply. -/
  | read (endpoint : SocketAddr) (conn : Nat) (pooled : Bool) (got : List UInt8)
  /-- Before `idle.lock().await` of `checkin`. -/
  | checkin (endpoint : SocketAddr) (conn : Nat) (msg : Message)
  | returned (result : PendingResult)
  | cancelled
  deriving DecidableEq

/-- A call of `query` under way. -/
structure DotCall where
  msgBytes : List UInt8
  /-- The endpoints after the current one. -/
  todo : List SocketAddr
  errors : List Str := []
  phase : DotPhase

/-- The connection a call works on. -/
def DotPhase.conn? : DotPhase → Option Nat
  | .write _ conn _ _ | .read _ conn _ _ | .checkin _ conn _ => some conn
  | _ => none

/-- The endpoint of the running `query_endpoint`. -/
def DotPhase.endpoint? : DotPhase → Option SocketAddr
  | .checkout endpoint | .connect endpoint | .write endpoint _ _ _ | .read endpoint _ _ _
  | .checkin endpoint _ _ => some endpoint
  | .returned _ | .cancelled => none

namespace DotCall

/-- The loop of `query` at its next endpoint: the endpoints after it, and
where the call stands then. -/
def endpointLoop (errors : List Str) : List SocketAddr → List SocketAddr × DotPhase
  | endpoint :: todo => (todo, .checkout endpoint)
  | [] =>
      if errors = [] then
        ([], .returned (.error (.network "no DoT endpoints configured".toList)))
      else ([], .returned (.error (.network ("; ".toList.intercalate errors))))

/-- `query` up to its first endpoint. -/
def new (toBytes : ToBytes) (endpoints : List SocketAddr) (message : Message) : DotCall :=
  match toBytes message with
  | .ok msgBytes =>
      let (todo, phase) := endpointLoop [] endpoints
      { msgBytes, todo, phase }
  | .error e => { msgBytes := [], todo := [], phase := .returned (.error (.fromProto e)) }

section
variable (showAddr : SocketAddr → Str)

/-- `query_endpoint` returns an error. -/
def failEndpoint (c : DotCall) (endpoint : SocketAddr) (e : UpstreamError) : DotCall :=
  let errors := c.errors ++ [showAddr endpoint ++ ": ".toList ++ e.display]
  let (todo, phase) := endpointLoop errors c.todo
  { c with todo, errors, phase }

/-- `exchange` returns an error: a connection from the pool was stale, and
a fresh one is tried. -/
def failExchange (c : DotCall) (endpoint : SocketAddr) (pooled : Bool) (e : UpstreamError) :
    DotCall :=
  if pooled then { c with phase := .connect endpoint } else c.failEndpoint showAddr endpoint e

/-- `got` has been read: on with reading, or to the decoder. -/
def received (fromBytes : FromBytes) (c : DotCall) (endpoint : SocketAddr) (conn : Nat)
    (pooled : Bool) (got : List UInt8) : DotCall :=
  if wanted got = 0 then
    match fromBytes (got.drop 2) with
    | .ok msg => { c with phase := .checkin endpoint conn msg }
    | .error e => c.failExchange showAddr endpoint pooled (.fromProto e)
  else { c with phase := .read endpoint conn pooled got }

end

/-- The start of `exchange`. -/
def startExchange (c : DotCall) (endpoint : SocketAddr) (conn : Nat) (pooled : Bool) : DotCall :=
  { c with phase := .write endpoint conn pooled (frame c.msgBytes) }

end DotCall

/-! ## The system -/

/-- The idle pool, all connections and all calls of one upstream. -/
structure DotState where
  now : Nat := 0
  idle : DotIdlePool := fun _ => []
  conns : List DotConn := []
  calls : List DotCall := []

/-- What calls, connections and the clock do. -/
inductive DotEvent where
  | call (message : Message)
  | checkout (i : Nat)
  /-- `connect` ends. -/
  | connect (i : Nat) (result : Except Str Unit)
  /-- `n` bytes are accepted. -/
  | write (i n : Nat)
  /-- `n` bytes arrive. -/
  | read (i n : Nat)
  /-- A write or a read ends with an error. -/
  | ioError (i : Nat) (detail : Str)
  | checkin (i : Nat)
  | timeout (i : Nat)
  /-- The future of call `i` is dropped. -/
  | cancel (i : Nat)
  /-- The peer of a connection sends a message. -/
  | reply (conn : Nat) (payload : List UInt8)
  | tick (d : Nat)

namespace DotState

variable (toBytes : ToBytes) (fromBytes : FromBytes) (showAddr : SocketAddr → Str)
  (endpoints : List SocketAddr)

/-- One await of a call, or something the server does. -/
def step (s : DotState) : DotEvent → Option DotState
  | .call message => some { s with calls := s.calls ++ [.new toBytes endpoints message] }
  | .checkout i => do
      let c ← s.calls[i]?
      match c.phase with
      | .checkout endpoint =>
          let (found, conns) := popFresh s.now (s.idle endpoint)
          let c' := match found with
            | some conn => c.startExchange endpoint conn true
            | none => { c with phase := .connect endpoint }
          some { s with
            idle := Function.update s.idle endpoint conns
            calls := s.calls.set i c' }
      | _ => none
  | .connect i result => do
      let c ← s.calls[i]?
      match c.phase, result with
      | .connect endpoint, .ok () => some { s with
          conns := s.conns ++ [{ endpoint }]
          calls := s.calls.set i (c.startExchange endpoint s.conns.length false) }
      | .connect endpoint, .error detail => some { s with
          calls := s.calls.set i (c.failEndpoint showAddr endpoint (.network detail)) }
      | _, _ => none
  | .write i n => do
      let c ← s.calls[i]?
      match c.phase with
      | .write endpoint conn pooled left => do
          let k ← s.conns[conn]?
          -- `write_all`, write by write
          if n = 0 ∨ left.length < n then none
          else
            let sent := k.sent ++ left.take n
            -- a query is sent when its last byte is
            if n = left.length then some { s with
              conns := s.conns.set conn
                { k with sent, queries := k.queries ++ [(i, c.msgBytes)] }
              calls := s.calls.set i { c with phase := .read endpoint conn pooled [] } }
            else some { s with
              conns := s.conns.set conn { k with sent }
              calls := s.calls.set i
                { c with phase := .write endpoint conn pooled (left.drop n) } }
      | _ => none
  | .read i n => do
      let c ← s.calls[i]?
      match c.phase with
      | .read endpoint conn pooled got => do
          let k ← s.conns[conn]?
          -- `read_exact`, read by read, of the length and then of the message
          if n = 0 ∨ wanted got < n ∨ k.inbound.length < n then none
          else
            let got := got ++ k.inbound.take n
            some { s with
              conns := s.conns.set conn { k with inbound := k.inbound.drop n }
              calls := s.calls.set i (c.received showAddr fromBytes endpoint conn pooled got) }
      | _ => none
  | .ioError i detail => do
      let c ← s.calls[i]?
      match c.phase with
      | .write endpoint _ pooled _ | .read endpoint _ pooled _ => some { s with
          calls := s.calls.set i (c.failExchange showAddr endpoint pooled (.network detail)) }
      | _ => none
  | .checkin i => do
      let c ← s.calls[i]?
      match c.phase with
      | .checkin endpoint conn msg =>
          let conns := s.idle endpoint
          some { s with
            -- a connection over the limit is closed
            idle := if conns.length < dotMaxIdlePerEndpoint
              then Function.update s.idle endpoint ((conn, s.now) :: conns) else s.idle
            calls := s.calls.set i { c with phase := .returned (.ok msg) } }
      | _ => none
  | .timeout i => do
      let c ← s.calls[i]?
      let endpoint ← c.phase.endpoint?
      some { s with calls := s.calls.set i (c.failEndpoint showAddr endpoint .timeout) }
  | .cancel i => do
      let c ← s.calls[i]?
      let _ ← c.phase.endpoint?
      some { s with calls := s.calls.set i { c with phase := .cancelled } }
  | .reply conn payload => do
      let k ← s.conns[conn]?
      some { s with
        conns := s.conns.set conn
          { k with inbound := k.inbound ++ frame payload, replies := k.replies ++ [payload] } }
  | .tick d => some { s with now := s.now + d }

/-- What is assumed of a peer that sends `payload`: it is a framed message,
and fewer messages have been sent on the connection than framed queries
received. -/
def RepliesInTurn (s : DotState) (conn : Nat) (payload : List UInt8) : Prop :=
  payload.length < 65536 ∧
    ∀ k, s.conns[conn]? = some k → k.replies.length < (frames k.sent).length

end DotState

/-! ## A call lets go of its connection -/

/-- The call holds no connection and has not succeeded. -/
structure DotPhase.Released (ph : DotPhase) : Prop where
  conn : ph.conn? = none
  notOk : ∀ msg, ph ≠ .returned (.ok msg)

namespace DotCall

variable {showAddr : SocketAddr → Str} (c : DotCall) (endpoint : SocketAddr) (pooled : Bool)
  (e : UpstreamError)

theorem released_endpointLoop (errors : List Str) (todo : List SocketAddr) :
    (endpointLoop errors todo).2.Released := by
  unfold endpointLoop
  split
  · exact ⟨rfl, fun _ h => by cases h⟩
  · split
    · exact ⟨rfl, fun _ h => by cases h⟩
    · exact ⟨rfl, fun _ h => by cases h⟩

theorem released_new (toBytes : ToBytes) (endpoints : List SocketAddr) (message : Message) :
    (new toBytes endpoints message).phase.Released := by
  unfold new
  split
  · exact released_endpointLoop [] endpoints
  · exact ⟨rfl, fun _ h => by cases h⟩

theorem released_failEndpoint : (c.failEndpoint showAddr endpoint e).phase.Released :=
  released_endpointLoop _ _

theorem released_failExchange :
    (c.failExchange showAddr endpoint pooled e).phase.Released := by
  unfold failExchange
  split
  · exact ⟨rfl, fun _ h => by cases h⟩
  · exact c.released_failEndpoint endpoint e

theorem msgBytes_failExchange :
    (c.failExchange showAddr endpoint pooled e).msgBytes = c.msgBytes := by
  unfold failExchange
  split
  · rfl
  · rfl

end DotCall

/-- What `checkout` finds is an entry that is young enough, and the entries
before it are dropped. -/
theorem popFresh_some {now conn : Nat} {conns rest : List (Nat × Nat)}
    (h : popFresh now conns = (some conn, rest)) :
    ∃ dropped since, conns = dropped ++ (conn, since) :: rest ∧ now - since < dotIdleMaxAge := by
  induction conns with
  | nil => cases h
  | cons x conns ih =>
      rw [popFresh] at h
      split at h
      · rename_i hage
        cases h
        exact ⟨[], x.2, rfl, hage⟩
      · obtain ⟨dropped, since, rfl, hage⟩ := ih h
        exact ⟨x :: dropped, since, rfl, hage⟩

theorem popFresh_none {now : Nat} {conns rest : List (Nat × Nat)}
    (h : popFresh now conns = (none, rest)) : rest = [] := by
  induction conns with
  | nil =>
      cases h
      rfl
  | cons x conns ih =>
      rw [popFresh] at h
      split at h
      · cases h
      · exact ih h

/-! ## One step -/

namespace DotState

variable {toBytes : ToBytes} {fromBytes : FromBytes} {showAddr : SocketAddr → Str}
  {endpoints : List SocketAddr} {s s' : DotState} {ev : DotEvent}

variable (toBytes fromBytes showAddr endpoints s) in
/-- **All that one step can do.** The ways in which a call lets go of its
connection, or finds none in the pool, are one case. -/
inductive Steps : DotEvent → DotState → Prop
  | call (message : Message) :
      Steps (.call message) { s with calls := s.calls ++ [.new toBytes endpoints message] }
  | release (ev : DotEvent) (i : Nat) (c c' : DotCall) (idle : DotIdlePool)
      (hc : s.calls[i]? = some c) (hrel : c'.phase.Released) (hmsg : c'.msgBytes = c.msgBytes)
      (hidle : ∀ e, (idle e).Sublist (s.idle e)) :
      Steps ev { s with idle, calls := s.calls.set i c' }
  | checkout (i : Nat) (c : DotCall) (endpoint : SocketAddr) (conn : Nat)
      (conns : List (Nat × Nat)) (hc : s.calls[i]? = some c) (hph : c.phase = .checkout endpoint)
      (hpop : popFresh s.now (s.idle endpoint) = (some conn, conns)) :
      Steps (.checkout i) { s with
        idle := Function.update s.idle endpoint conns
        calls := s.calls.set i (c.startExchange endpoint conn true) }
  | connect (i : Nat) (c : DotCall) (endpoint : SocketAddr) (hc : s.calls[i]? = some c)
      (hph : c.phase = .connect endpoint) :
      Steps (.connect i (.ok ())) { s with
        conns := s.conns ++ [{ endpoint }]
        calls := s.calls.set i (c.startExchange endpoint s.conns.length false) }
  | write (i n : Nat) (c : DotCall) (endpoint : SocketAddr) (conn : Nat) (pooled : Bool)
      (left : List UInt8) (k : DotConn) (hc : s.calls[i]? = some c)
      (hph : c.phase = .write endpoint conn pooled left) (hk : s.conns[conn]? = some k)
      (hn : n < left.length) :
      Steps (.write i n) { s with
        conns := s.conns.set conn { k with sent := k.sent ++ left.take n }
        calls := s.calls.set i { c with phase := .write endpoint conn pooled (left.drop n) } }
  | writeAll (i : Nat) (c : DotCall) (endpoint : SocketAddr) (conn : Nat) (pooled : Bool)
      (left : List UInt8) (k : DotConn) (hc : s.calls[i]? = some c)
      (hph : c.phase = .write endpoint conn pooled left) (hk : s.conns[conn]? = some k) :
      Steps (.write i left.length) { s with
        conns := s.conns.set conn
          { k with sent := k.sent ++ left, queries := k.queries ++ [(i, c.msgBytes)] }
        calls := s.calls.set i { c with phase := .read endpoint conn pooled [] } }
  | read (i n : Nat) (c : DotCall) (endpoint : SocketAddr) (conn : Nat) (pooled : Bool)
      (got : List UInt8) (k : DotConn) (hc : s.calls[i]? = some c)
      (hph : c.phase = .read endpoint conn pooled got) (hk : s.conns[conn]? = some k)
      (hn : n ≠ 0) (hlen : n ≤ k.inbound.length) :
      Steps (.read i n) { s with
        conns := s.conns.set conn { k with inbound := k.inbound.drop n }
        calls := s.calls.set i
          (c.received showAddr fromBytes endpoint conn pooled (got ++ k.inbound.take n)) }
  | checkin (i : Nat) (c : DotCall) (endpoint : SocketAddr) (conn : Nat) (msg : Message)
      (hc : s.calls[i]? = some c) (hph : c.phase = .checkin endpoint conn msg) :
      Steps (.checkin i) { s with
        idle := if (s.idle endpoint).length < dotMaxIdlePerEndpoint
          then Function.update s.idle endpoint ((conn, s.now) :: s.idle endpoint) else s.idle
        calls := s.calls.set i { c with phase := .returned (.ok msg) } }
  | reply (conn : Nat) (payload : List UInt8) (k : DotConn) (hk : s.conns[conn]? = some k) :
      Steps (.reply conn payload) { s with
        conns := s.conns.set conn
          { k with inbound := k.inbound ++ frame payload, replies := k.replies ++ [payload] } }
  | tick (d : Nat) : Steps (.tick d) { s with now := s.now + d }

theorem steps (h : step toBytes fromBytes showAddr endpoints s ev = some s') :
    Steps toBytes fromBytes showAddr endpoints s ev s' := by
  cases ev with
  | call message =>
      cases h
      exact .call message
  | checkout i =>
      obtain ⟨c, hc, h⟩ := Option.bind_eq_some_iff.mp h
      split at h
      · rename_i endpoint hph
        cases hpop : popFresh s.now (s.idle endpoint) with
        | mk found conns =>
            rw [hpop] at h
            -- a connection young enough is taken; without one the idle list is emptied
            cases found with
            | some conn =>
                cases h
                exact .checkout i c endpoint conn conns hc hph hpop
            | none =>
                cases h
                refine .release _ i c _ _ hc ⟨rfl, fun _ h => by cases h⟩ rfl ?_
                intro e
                rw [popFresh_none hpop]
                by_cases he : e = endpoint
                · rw [he, Function.update_self]
                  exact List.nil_sublist _
                · rw [Function.update_of_ne he]
      · cases h
  | connect i result =>
      obtain ⟨c, hc, h⟩ := Option.bind_eq_some_iff.mp h
      split at h
      · rename_i endpoint hph _
        cases h
        exact .connect i c endpoint hc hph
      · rename_i endpoint detail hph _
        cases h
        exact .release _ i c _ _ hc (c.released_failEndpoint endpoint _) rfl
          fun _ => List.Sublist.refl _
      · cases h
  | write i n =>
      obtain ⟨c, hc, h⟩ := Option.bind_eq_some_iff.mp h
      split at h
      · rename_i endpoint conn pooled left hph
        obtain ⟨k, hk, h⟩ := Option.bind_eq_some_iff.mp h
        split at h
        · cases h
        · rename_i hn
          simp only at h
          -- the last bytes move the call on to its reply
          split at h
          · rename_i hall
            cases h
            subst hall
            rw [List.take_length]
            exact .writeAll i c endpoint conn pooled left k hc hph hk
          · cases h
            exact .write i n c endpoint conn pooled left k hc hph hk (by omega)
      · cases h
  | read i n =>
      obtain ⟨c, hc, h⟩ := Option.bind_eq_some_iff.mp h
      split at h
      · rename_i endpoint conn pooled got hph
        obtain ⟨k, hk, h⟩ := Option.bind_eq_some_iff.mp h
        split at h
        · cases h
        · rename_i hn
          cases h
          exact .read i n c endpoint conn pooled got k hc hph hk (by omega) (by omega)
      · cases h
  | ioError i detail =>
      obtain ⟨c, hc, h⟩ := Option.bind_eq_some_iff.mp h
      split at h
      · rename_i endpoint conn pooled left hph
        cases h
        exact .release _ i c _ _ hc (c.released_failExchange endpoint pooled _)
          (c.msgBytes_failExchange endpoint pooled _) fun _ => List.Sublist.refl _
      · rename_i endpoint conn pooled got hph
        cases h
        exact .release _ i c _ _ hc (c.released_failExchange endpoint pooled _)
          (c.msgBytes_failExchange endpoint pooled _) fun _ => List.Sublist.refl _
      · cases h
  | checkin i =>
      obtain ⟨c, hc, h⟩ := Option.bind_eq_some_iff.mp h
      split at h
      · rename_i endpoint conn msg hph
        cases h
        exact .checkin i c endpoint conn msg hc hph
      · cases h
  | timeout i =>
      obtain ⟨c, hc, h⟩ := Option.bind_eq_some_iff.mp h
      -- wherever the attempt was, its connection is dropped with it
      obtain ⟨endpoint, hep, h⟩ := Option.bind_eq_some_iff.mp h
      cases h
      exact .release _ i c _ _ hc (c.released_failEndpoint endpoint _) rfl
        fun _ => List.Sublist.refl _
  | cancel i =>
      obtain ⟨c, hc, h⟩ := Option.bind_eq_some_iff.mp h
      obtain ⟨endpoint, hep, h⟩ := Option.bind_eq_some_iff.mp h
      cases h
      exact .release _ i c _ _ hc ⟨rfl, fun _ h => by cases h⟩ rfl fun _ => List.Sublist.refl _
  | reply conn payload =>
      obtain ⟨k, hk, h⟩ := Option.bind_eq_some_iff.mp h
      cases h
      exact .reply conn payload k hk
  | tick d =>
      cases h
      exact .tick d

end DotState

end Dotdns
