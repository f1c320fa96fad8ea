import Dotdns.Lib.LineStream
import Dotdns.Observability.Snapshots
import Dotdns.Server.Resolve

/-!
# Management — the line protocol

`ManagementServer` beside the resolver: any number of connections, each a
task that reads a request a line, dispatches it and writes a line of JSON
back. A task steps once for each read, each dispatch and each write, so
its steps interleave with those of the resolver and of the other tasks.

The JSON library is a parameter: the text of a request or a response, and
what a text is read as. Errors of it are its texts.
-/

namespace Dotdns

open Lib

/-! ## Requests and responses -/

/-- `ManagementResponse`. -/
structure ManagementResponse where
  status : Str
  metrics : Option MetricsSnapshot := none
  message : Option Str := none
  upstreams : Option (List UpstreamSnapshot) := none
  clients : Option (List ClientSnapshot) := none
  deriving DecidableEq, Repr

namespace ManagementResponse

def ok : ManagementResponse := { status := "ok".toList }

def okWithMetrics (metrics : MetricsSnapshot) : ManagementResponse :=
  { status := "ok".toList, metrics := some metrics }

def okWithUpstreams (upstreams : List UpstreamSnapshot) : ManagementResponse :=
  { status := "ok".toList, upstreams := some upstreams }

def okWithClients (clients : List ClientSnapshot) : ManagementResponse :=
  { status := "ok".toList, clients := some clients }

/-- `ManagementResponse::error`. -/
def error (msg : Str) : ManagementResponse :=
  { status := "error".toList, message := some msg }

end ManagementResponse

/-- `ManagementError`. -/
inductive ManagementError where
  | connection (detail : Str)
  | request (detail : Str)
  deriving DecidableEq, Repr

/-- `serde_json` at the two types of the protocol, and the text of a failed
reload. -/
structure ManagementCodec where
  requestJson : ManagementRequest → Except Str Str
  requestOf : Str → Except Str ManagementRequest
  responseJson : ManagementResponse → Except Str Str
  responseOf : Str → Except Str ManagementResponse
  reloadError : BlocklistError → Str

/-! ## The server -/

/-- What the tasks share: the recorder was made at `startTime`. -/
structure ManagementServer where
  U : UnicodeCase
  codec : ManagementCodec
  startTime : Nat

namespace ManagementServer

variable (srv : ManagementServer)

/-- `metrics.snapshot()` at this moment. -/
def snapshot (s : ResolverState) : MetricsSnapshot :=
  s.metrics.snapshot (UInt64.ofNat (Duration.asSecs (s.now - srv.startTime)))

/-- What `dispatch` returns of the registry, if there is one. -/
def observed (s : ResolverState) (f : ObservabilityRegistry → ManagementResponse) :
    ManagementResponse :=
  match s.observability with
  | some reg => f reg
  | none => .error "observability not available".toList

/-- What `dispatch` returns; what it does to the shared state is
`ResolverState.dispatch`. -/
def dispatch (s : ResolverState) (req : ManagementRequest) (io : ReloadIo) (disk : Disk) :
    ManagementResponse :=
  match req with
  | .status | .tracking | .activity => .okWithMetrics (srv.snapshot s)
  | .cacheFlush => .ok
  | .blocklistReload =>
      match (s.blocklist.refreshAndReload srv.U io disk).1 with
      | .ok _ => .ok
      | .error e => .error ("reload failed: ".toList ++ srv.codec.reloadError e)
  | .sources | .sourcestats => observed s fun reg => .okWithUpstreams reg.upstreamSnapshot
  | .clients => observed s fun reg => .okWithClients reg.clientSnapshot

/-- The answer to a line that is no request. -/
def invalidRequest (e : Str) : ManagementResponse := .error ("invalid request: ".toList ++ e)

end ManagementServer

/-! ## Connections -/

/-- Where the task of a connection stands. -/
inductive ManagementPhase where
  | reading
  /-- Before the `dispatch` of the request on this line. -/
  | dispatching (line : Str) (req : ManagementRequest)
  | sending (resp : ManagementResponse)
  | returned (result : Except ManagementError Unit)
  deriving DecidableEq

/-- Ghost: `source` is the stream as it was accepted, and `answered` holds
each line that was answered, with its answer. -/
structure ManagementConn where
  source : LineStream
  input : LineStream
  phase : ManagementPhase
  output : List UInt8
  answered : List (Str × ManagementResponse)
  deriving DecidableEq

namespace ManagementConn

/-- A connection that has just come in. -/
def accept (source : LineStream) : ManagementConn := ⟨source, source, .reading, [], []⟩

/-- `resp` is the answer to `line`, and is to be sent. -/
def answer (c : ManagementConn) (line : Str) (resp : ManagementResponse) : ManagementConn :=
  { c with phase := .sending resp, answered := c.answered ++ [(line, resp)] }

section
variable (codec : ManagementCodec)

/-- The loop of `handle_connection` on a line that was read. -/
def received (c : ManagementConn) (text : Str) : ManagementConn :=
  let trimmed := trim text
  if trimmed = [] then c
  else
    match codec.requestOf trimmed with
    | .error e => c.answer trimmed (ManagementServer.invalidRequest e)
    | .ok req => { c with phase := .dispatching trimmed req }

/-- `read_line` in `handle_connection`; `none` while it waits. -/
def read (c : ManagementConn) : Option ManagementConn :=
  match c.input.readLine with
  | some (.line text, input) => some ({ c with input }.received codec text)
  | some (.eof, input) => some { c with input, phase := .returned (.ok ()) }
  | some (.error e, input) =>
      some { c with input, phase := .returned (.error (.connection e)) }
  | none => none

/-- `send_response`; a write that fails has put out its first `n` bytes. -/
def send (c : ManagementConn) (resp : ManagementResponse) (outcome : Except (Nat × Str) Unit) :
    ManagementConn :=
  match codec.responseJson resp with
  | .error e => { c with phase := .returned (.error (.request e)) }
  | .ok json =>
      let bytes := utf8 json ++ [lineFeed]
      match outcome with
      | .ok () => { c with phase := .reading, output := c.output ++ bytes }
      | .error (n, e) =>
          { c with
            phase := .returned (.error (.connection e))
            output := c.output ++ bytes.take n }

end

end ManagementConn

/-! ## The resolver and its connections -/

/-- The resolver with the management connections. -/
structure ManagementState where
  resolver : ResolverState
  conns : List ManagementConn

/-- What the connections do, one await at a time. -/
inductive ManagementEvent where
  /-- A step of the resolver that is no management request. -/
  | resolver (e : ResolverEvent)
  | accept (source : LineStream)
  | read (i : Nat)
  | dispatch (i : Nat) (io : ReloadIo) (disk : Disk)
  | send (i : Nat) (outcome : Except (Nat × Str) Unit)

/-- The step is a management request. -/
def ResolverEvent.isManage : ResolverEvent → Bool
  | .manage .. => true
  | _ => false

namespace ManagementState

/-- Connection `i` moves on. -/
def setConn (s : ManagementState) (i : Nat) (c : ManagementConn) : ManagementState :=
  { s with conns := s.conns.set i c }

section
variable (srv : ManagementServer) (text : LabelText) (cfg : ResolveConfig)

/-- One step of a connection, or of the resolver. -/
def step (s : ManagementState) : ManagementEvent → Option ManagementState
  | .resolver e =>
      -- management reaches the resolver through a connection only
      if e.isManage then none
      else (s.resolver.step srv.U text cfg e).map fun resolver => { s with resolver }
  | .accept source => some { s with conns := s.conns ++ [.accept source] }
  | .read i =>
      match s.conns[i]? with
      | some c =>
          match c.phase with
          | .reading => (c.read srv.codec).map fun c' => s.setConn i c'
          | _ => none
      | none => none
  | .dispatch i io disk =>
      match s.conns[i]? with
      | some c =>
          match c.phase with
          | .dispatching line req =>
              some
                { resolver := s.resolver.dispatch srv.U req io disk
                  conns := s.conns.set i (c.answer line (srv.dispatch s.resolver req io disk)) }
          | _ => none
      | none => none
  | .send i outcome =>
      match s.conns[i]? with
      | some c =>
          match c.phase with
          | .sending resp => some (s.setConn i (c.send srv.codec resp outcome))
          | _ => none
      | none => none

end

/-- The request that a step dispatches, and the connection it is for. -/
def dispatched (s : ManagementState) : ManagementEvent → Option (Nat × ManagementRequest)
  | .dispatch i _ _ =>
      match s.conns[i]? with
      | some c =>
          match c.phase with
          | .dispatching _ req => some (i, req)
          | _ => none
      | none => none
  | _ => none

/-- The step of the resolver that a step is. -/
def resolverEvent (s : ManagementState) : ManagementEvent → Option ResolverEvent
  | .resolver e => some e
  | .dispatch i io disk =>
      (s.dispatched (.dispatch i io disk)).map fun p => .manage p.2 io disk
  | _ => none

end ManagementState

end Dotdns
