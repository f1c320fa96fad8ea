import Dotdns.Lib.Text
import Dotdns.Upstream.Plain
import Dotdns.Upstream.Dot

/-!
# Upstream — endpoint after endpoint

`query` of each of the three protocols, as a function of what the network
does. A plain upstream has one endpoint and two ways to it; a DoT and a DoH
upstream go through the endpoints their host name was resolved to, until
one answers, and return the errors of all of them as one text.

Every endpoint attempt runs under the configured timeout. Beside the
result, a query returns the attempts it made (ghost).
-/

namespace Dotdns

open Lib

/-- An attempt at an endpoint, and whether it ended because its timeout
elapsed. -/
structure EndpointAttempt where
  result : PendingResult
  timedOut : Bool

/-- An attempt under `tokio::time::timeout`: there is no other source of
`Timeout`. -/
def EndpointAttempt.timed (result : PendingResult) : EndpointAttempt where
  result
  timedOut := match result with
    | .error .timeout => true
    | _ => false

/-- What a query returns, and the endpoints it has tried. -/
abbrev UpstreamRun := PendingResult × List EndpointAttempt

/-! ## The loop over the endpoints -/

/-- What `query` returns when no endpoint has answered. -/
def joinErrors (empty : Str) (errors : List Str) : UpstreamError :=
  if errors = [] then .network empty else .network ("; ".toList.intercalate errors)

/-- The loop of `DotUpstream::query` and of `DohUpstream::query` from
attempt number `k`. -/
def tryEndpoints (showAddr : SocketAddr → Str) (empty : Str)
    (queryEndpoint : Nat → SocketAddr → EndpointAttempt) :
    Nat → List SocketAddr → List Str → UpstreamRun
  | _, [], errors => (.error (joinErrors empty errors), [])
  | k, endpoint :: endpoints, errors =>
      let attempt := queryEndpoint k endpoint
      match attempt.result with
      | .ok response => (.ok response, [attempt])
      | .error e =>
          let (result, attempts) := tryEndpoints showAddr empty queryEndpoint (k + 1) endpoints
            (errors ++ [showAddr endpoint ++ ": ".toList ++ e.display])
          (result, attempt :: attempts)

/-! ## DNS over TLS -/

/-- What happens on the way to one DoT endpoint: `checkout` may find a
connection, with the bytes that come in on it; otherwise, or when that is
stale, there is a fresh one. -/
structure DotEndpointIo where
  checkout : Timed (Option TcpIo) := { value := none }
  fresh : TcpIo
  tls : Timed (Except Str Unit) := { value := .ok () }
  checkin : Timed Unit := { value := () }

/-- An operation that cannot fail, inside `tokio::time::timeout`. -/
def Timed.before {α : Type} (deadline : Nat) (t : Timed α) : Except UpstreamError α :=
  if t.elapsed < deadline then .ok t.value else .error .timeout

/-- The DNS name check of `ServerName::try_from`. -/
abbrev ServerNameTryFrom := Str → Except Str Unit

/-- `DotUpstream`, without its TLS configuration and its idle pool. -/
structure DotUpstream where
  address : Str
  hostname : Str
  endpoints : List SocketAddr
  timeout : Nat
  deriving DecidableEq, Repr

namespace DotUpstream

section
variable (fromBytes : FromBytes) (serverName : ServerNameTryFrom) (up : DotUpstream)

/-- `DotUpstream::connect`. -/
def connect (io : DotEndpointIo) : Except UpstreamError Unit := do
  io.fresh.connect.within up.timeout
  (serverName up.hostname).mapError fun e => .network ("invalid server name: ".toList ++ e)
  io.tls.within up.timeout

/-- `DotUpstream::exchange`: one frame out, one frame in. -/
def exchange (stream : TcpIo) (msgBytes : List UInt8) : PendingResult := do
  (stream.write (u16Bytes (UInt16.ofNat msgBytes.length))).within up.timeout
  (stream.write msgBytes).within up.timeout
  let (len, rest) ← stream.readExact up.timeout 2 stream.incoming
  let (buf, _) ← stream.readExact up.timeout (u16OfBytes len) rest
  (fromBytes buf).mapError .fromProto

/-- A fresh connection. -/
def exchangeFresh (io : DotEndpointIo) (msgBytes : List UInt8) : PendingResult := do
  up.connect serverName io
  let msg ← up.exchange fromBytes io.fresh msgBytes
  io.checkin.before up.timeout
  .ok msg

/-- `query_endpoint`: an idle connection first, and a fresh one when it
fails. -/
def queryEndpoint (io : DotEndpointIo) (msgBytes : List UInt8) : PendingResult := do
  match ← io.checkout.before up.timeout with
  | some stream =>
      match up.exchange fromBytes stream msgBytes with
      | .ok msg => do
          io.checkin.before up.timeout
          .ok msg
      -- the time is that of the whole attempt
      | .error .timeout => .error .timeout
      | .error _ => up.exchangeFresh fromBytes serverName io msgBytes
  | none => up.exchangeFresh fromBytes serverName io msgBytes

/-- `DotUpstream::query`: one endpoint after another, until one answers. -/
def query (toBytes : ToBytes) (showAddr : SocketAddr → Str) (io : Nat → DotEndpointIo)
    (message : Message) : UpstreamRun :=
  match toBytes message with
  | .error e => (.error (.fromProto e), [])
  | .ok msgBytes =>
      tryEndpoints showAddr "no DoT endpoints configured".toList
        (fun k _ => .timed (up.queryEndpoint fromBytes serverName (io k) msgBytes))
        0 up.endpoints []

end

end DotUpstream

/-- The transition system of the DoT calls ends its loop the same way. -/
theorem DotCall.endpointLoop_nil (errors : List Str) :
    DotCall.endpointLoop errors [] =
      ([], .returned (.error (joinErrors "no DoT endpoints configured".toList errors))) := by
  unfold DotCall.endpointLoop joinErrors
  by_cases h : errors = []
  · simp [h]
  · simp [h]

/-! ## DNS over HTTPS -/

/-- An error of the HTTP client: its text, the texts of its chain of
sources, and whether it is the request's timeout. -/
structure ReqwestError where
  display : Str
  sources : List Str := []
  isTimeout : Bool := false
  deriving DecidableEq, Repr

/-- `format_error_chain`. -/
def formatErrorChain (error : ReqwestError) : Str :=
  error.sources.foldl (fun message err => message ++ ": ".toList ++ err) error.display

/-- `?` on a `reqwest::Error`. -/
def UpstreamError.fromReqwest (e : ReqwestError) : UpstreamError := .network (formatErrorChain e)

/-- A response as the HTTP client returns it. -/
structure HttpResponse where
  status : Nat
  /-- `Display` of the status. -/
  statusText : Str
  bytes : Except ReqwestError (List UInt8)

/-- `StatusCode::is_success`. -/
def HttpResponse.isSuccess (r : HttpResponse) : Bool := decide (200 ≤ r.status ∧ r.status < 300)

/-- A request of the endpoint's HTTP client: URL, timeout and body. -/
abbrev HttpPost := Str → Nat → List UInt8 → Except ReqwestError HttpResponse

/-- `DohUpstream`; each endpoint has a client pinned to it. -/
structure DohUpstream where
  url : Str
  timeout : Nat
  endpoints : List SocketAddr
  deriving DecidableEq, Repr

namespace DohUpstream

section
variable (fromBytes : FromBytes) (showAddr : SocketAddr → Str) (up : DohUpstream)

/-- `DohUpstream::query_endpoint`: one POST; of an error's body 256 bytes
are kept. -/
def queryEndpoint (post : HttpPost) (addr : SocketAddr) (msgBytes : List UInt8) :
    EndpointAttempt :=
  match post up.url up.timeout msgBytes with
  | .error e => ⟨.error (.fromReqwest e), e.isTimeout⟩
  | .ok response =>
      if !response.isSuccess then
        let (body, timedOut) := match response.bytes with
          | .ok bytes => (fromUtf8Lossy (bytes.take 256), false)
          | .error e => ("failed to read response body: ".toList ++ e.display, e.isTimeout)
        ⟨.error (.network ("HTTP error from ".toList ++ showAddr addr ++ ": ".toList ++
          response.statusText ++ " ".toList ++ body)), timedOut⟩
      else match response.bytes with
        | .error e => ⟨.error (.fromReqwest e), e.isTimeout⟩
        | .ok respBytes => ⟨(fromBytes respBytes).mapError .fromProto, false⟩

/-- `DohUpstream::query`, the same over HTTPS. -/
def query (toBytes : ToBytes) (post : Nat → HttpPost) (message : Message) : UpstreamRun :=
  match toBytes message with
  | .error e => (.error (.fromProto e), [])
  | .ok msgBytes =>
      tryEndpoints showAddr "no DoH endpoints configured".toList
        (fun k addr => up.queryEndpoint fromBytes showAddr (post k) addr msgBytes)
        0 up.endpoints []

end

end DohUpstream

/-! ## The three protocols -/

/-- `Upstream`. -/
inductive Upstream where
  | plain (up : PlainUpstream)
  | dot (up : DotUpstream)
  | doh (up : DohUpstream)
  deriving DecidableEq, Repr

/-- What the network does for one query, by protocol; for attempt `k` where
there may be several. -/
structure UpstreamIo where
  plain : PlainIo
  dot : Nat → DotEndpointIo
  doh : Nat → HttpPost

/-- The two ways of a plain query, as far as they are taken. -/
def PlainUpstream.attempts (toBytes : ToBytes) (fromBytes : FromBytes) (up : PlainUpstream)
    (io : PlainIo) (message : Message) : List EndpointAttempt :=
  let udp := up.queryUdp toBytes fromBytes io.udp message
  let tcp := EndpointAttempt.timed (up.queryTcp toBytes fromBytes io.tcp message)
  match udp with
  | .ok (response, _) =>
      if isTruncated toBytes response then [.timed (.ok response), tcp]
      else [.timed (.ok response)]
  | .error e => [.timed (.error e), tcp]

/-- The libraries that a query goes through. -/
structure UpstreamCodec where
  toBytes : ToBytes
  fromBytes : FromBytes
  serverName : ServerNameTryFrom
  showAddr : SocketAddr → Str

/-- `Upstream::query`. -/
def Upstream.query (lib : UpstreamCodec) (io : UpstreamIo) (message : Message) :
    Upstream → UpstreamRun
  | .plain up =>
      ((up.query lib.toBytes lib.fromBytes io.plain message).map Prod.fst,
        up.attempts lib.toBytes lib.fromBytes io.plain message)
  | .dot up => up.query lib.fromBytes lib.serverName lib.toBytes lib.showAddr io.dot message
  | .doh up => up.query lib.fromBytes lib.showAddr lib.toBytes io.doh message

/-- The upstream is asked without encryption. -/
def Upstream.isPlain : Upstream → Bool
  | .plain _ => true
  | .dot _ | .doh _ => false

/-! ## Which error a query ends with -/

/-- A loop over endpoints never returns `Timeout`: the errors have become
text. -/
theorem tryEndpoints_ne_timeout (showAddr : SocketAddr → Str) (empty : Str)
    (queryEndpoint : Nat → SocketAddr → EndpointAttempt) (k : Nat) (endpoints : List SocketAddr)
    (errors : List Str) :
    (tryEndpoints showAddr empty queryEndpoint k endpoints errors).1 ≠ .error .timeout := by
  induction endpoints generalizing k errors with
  | nil =>
      simp only [tryEndpoints, joinErrors]
      by_cases h : errors = [] <;> simp [h]
  | cons endpoint endpoints ih =>
      simp only [tryEndpoints]
      cases hres : (queryEndpoint k endpoint).result with
      | ok response => simp
      | error e =>
          simp only
          exact ih _ _

theorem Upstream.query_ne_timeout (lib : UpstreamCodec) (io : UpstreamIo) (message : Message)
    {up : Upstream} (h : up.isPlain = false) : (up.query lib io message).1 ≠ .error .timeout := by
  cases up with
  | plain up => cases h
  | dot up =>
      simp only [Upstream.query, DotUpstream.query]
      cases lib.toBytes message with
      | error e => simp [UpstreamError.fromProto]
      | ok msgBytes => exact tryEndpoints_ne_timeout lib.showAddr _ _ 0 up.endpoints []
  | doh up =>
      simp only [Upstream.query, DohUpstream.query]
      cases lib.toBytes message with
      | error e => simp [UpstreamError.fromProto]
      | ok msgBytes => exact tryEndpoints_ne_timeout lib.showAddr _ _ 0 up.endpoints []

/-- At least one endpoint was tried, and every attempt timed out. -/
def AllTimedOut (attempts : List EndpointAttempt) : Prop :=
  attempts ≠ [] ∧ ∀ a ∈ attempts, a.timedOut = true

instance (attempts : List EndpointAttempt) : Decidable (AllTimedOut attempts) :=
  inferInstanceAs (Decidable (attempts ≠ [] ∧ ∀ a ∈ attempts, a.timedOut = true))

/-- No endpoint ran into its timeout. -/
def NoneTimedOut (attempts : List EndpointAttempt) : Prop :=
  ∀ a ∈ attempts, a.timedOut = false

theorem EndpointAttempt.timedOut_timed {result : PendingResult} :
    (EndpointAttempt.timed result).timedOut = true ↔ result = .error .timeout := by
  unfold EndpointAttempt.timed
  cases result with
  | ok response => simp
  | error e => cases e <;> simp

/-- The result of a plain query is that of the last way it took. -/
theorem PlainUpstream.query_eq_last (toBytes : ToBytes) (fromBytes : FromBytes)
    (up : PlainUpstream) (io : PlainIo) (message : Message) :
    ∃ before result, up.attempts toBytes fromBytes io message = before ++ [.timed result] ∧
      (up.query toBytes fromBytes io message).map Prod.fst = result := by
  have htcp : ∀ r : PendingResult,
      (r.map fun response => (response, Via.tcp)).map Prod.fst = r := by
    intro r
    cases r <;> rfl
  unfold PlainUpstream.attempts PlainUpstream.query
  cases up.queryUdp toBytes fromBytes io.udp message with
  | error e => exact ⟨[_], _, rfl, htcp _⟩
  | ok found =>
      obtain ⟨response, datagram⟩ := found
      by_cases htrunc : isTruncated toBytes response = true
      · simp only [htrunc, if_true]
        exact ⟨[_], _, rfl, htcp _⟩
      · simp only [htrunc]
        exact ⟨[], _, rfl, rfl⟩

/-- A plain query passes the timeout on. -/
theorem Upstream.plain_timeout (lib : UpstreamCodec) (io : UpstreamIo) (message : Message)
    (up : PlainUpstream) :
    let r := (Upstream.plain up).query lib io message
    (AllTimedOut r.2 → r.1 = .error .timeout) ∧ (NoneTimedOut r.2 → r.1 ≠ .error .timeout) := by
  obtain ⟨before, result, hattempts, hresult⟩ :=
    PlainUpstream.query_eq_last lib.toBytes lib.fromBytes up io.plain message
  have hlast : EndpointAttempt.timed result ∈ before ++ [.timed result] := by simp
  simp only [Upstream.query, hattempts, hresult]
  constructor
  · intro hall
    exact EndpointAttempt.timedOut_timed.mp (hall.2 _ hlast)
  · intro hnone htimeout
    have hfalse := hnone _ hlast
    rw [EndpointAttempt.timedOut_timed.mpr htimeout] at hfalse
    cases hfalse

/-! ## Every error of a query -/

/-- The errors that a query can end with; nothing but a plain one times
out. -/
def Upstream.FailsWith (up : Upstream) : UpstreamError → Prop
  | .network _ | .serialization _ => True
  | .timeout => up.isPlain = true
  | .invalidResponse _ | .allFailed | .unsupportedFeature _ => False

theorem Timed.within_failsOnly {α : Type} {P : UpstreamError → Prop} (hnet : ∀ e, P (.network e))
    (htime : P .timeout) {deadline : Nat} {t : Timed (Except Str α)} :
    FailsOnly P (t.within deadline) := by
  unfold Timed.within
  split
  · exact .mapError hnet
  · exact .error htime

theorem TcpIo.readExact_failsOnly {P : UpstreamError → Prop} (hnet : ∀ e, P (.network e))
    (htime : P .timeout) {io : TcpIo} {deadline n : Nat} {incoming : List (Timed UInt8)} :
    FailsOnly P (io.readExact deadline n incoming) := by
  unfold TcpIo.readExact
  dsimp only
  split
  · split
    · exact .error (hnet _)
    · exact .error htime
  · split
    · exact .ok
    · exact .error htime

theorem PlainUpstream.queryTcp_failsOnly {toBytes : ToBytes} {fromBytes : FromBytes}
    {up : PlainUpstream} {io : TcpIo} {message : Message} :
    FailsOnly (Upstream.plain up).FailsWith (up.queryTcp toBytes fromBytes io message) := by
  have hnet : ∀ e, (Upstream.plain up).FailsWith (.network e) := fun _ => trivial
  have hser : ∀ e, (Upstream.plain up).FailsWith (.fromProto e) := fun _ => trivial
  have htime : (Upstream.plain up).FailsWith .timeout := rfl
  unfold PlainUpstream.queryTcp
  refine .bind (.mapError hser) fun msgBytes => ?_
  refine .bind (Timed.within_failsOnly hnet htime) fun _ => ?_
  refine .bind (Timed.within_failsOnly hnet htime) fun _ => ?_
  refine .bind (Timed.within_failsOnly hnet htime) fun _ => ?_
  refine .bind (TcpIo.readExact_failsOnly hnet htime) ?_
  rintro ⟨len, rest⟩
  refine .bind (TcpIo.readExact_failsOnly hnet htime) ?_
  rintro ⟨buf, rest'⟩
  exact .mapError hser

/-- A plain query fails the way its TCP attempt does. -/
theorem PlainUpstream.query_failsOnly {toBytes : ToBytes} {fromBytes : FromBytes}
    {up : PlainUpstream} {io : PlainIo} {message : Message} :
    FailsOnly (Upstream.plain up).FailsWith
      ((up.query toBytes fromBytes io message).map Prod.fst) := by
  have hmap : ∀ {α β : Type} {x : Except UpstreamError α} {f : α → β},
      FailsOnly (Upstream.plain up).FailsWith x →
        FailsOnly (Upstream.plain up).FailsWith (x.map f) := by
    intro α β x f hx e h
    cases x with
    | error _ =>
        cases h
        exact hx e rfl
    | ok a => cases h
  have htcp : FailsOnly (Upstream.plain up).FailsWith
      (up.queryTcp toBytes fromBytes io.tcp message) := PlainUpstream.queryTcp_failsOnly
  apply hmap
  unfold PlainUpstream.query
  dsimp only
  split
  · split
    · exact hmap htcp
    · exact .ok
  · exact hmap htcp

/-- A loop over endpoints ends in a text. -/
theorem tryEndpoints_error {showAddr : SocketAddr → Str} {empty : Str}
    {queryEndpoint : Nat → SocketAddr → EndpointAttempt} {k : Nat} {endpoints : List SocketAddr}
    {errors : List Str} {e : UpstreamError}
    (h : (tryEndpoints showAddr empty queryEndpoint k endpoints errors).1 = .error e) :
    ∃ detail, e = .network detail := by
  induction endpoints generalizing k errors with
  | nil =>
      simp only [tryEndpoints, joinErrors] at h
      split at h
      · exact ⟨_, (Except.error.inj h).symm⟩
      · exact ⟨_, (Except.error.inj h).symm⟩
  | cons endpoint endpoints ih =>
      simp only [tryEndpoints] at h
      split at h
      · cases h
      · exact ih h

theorem Upstream.query_failsWith {lib : UpstreamCodec} {io : UpstreamIo} {message : Message}
    {up : Upstream} {e : UpstreamError} (h : (up.query lib io message).1 = .error e) :
    up.FailsWith e := by
  cases up with
  | plain up => exact PlainUpstream.query_failsOnly e h
  | dot up =>
      simp only [Upstream.query, DotUpstream.query] at h
      split at h
      · cases h
        trivial
      · obtain ⟨detail, rfl⟩ := tryEndpoints_error h
        trivial
  | doh up =>
      simp only [Upstream.query, DohUpstream.query] at h
      split at h
      · cases h
        trivial
      · obtain ⟨detail, rfl⟩ := tryEndpoints_error h
        trivial

end Dotdns
