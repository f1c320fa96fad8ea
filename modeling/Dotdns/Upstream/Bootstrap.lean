import Dotdns.Lib.Dedup
import Dotdns.Upstream.Dot

/-!
# Upstream — bootstrap lookups

`query_bootstrap_dns` asks one server for the addresses of a host over a
connected UDP socket and reads datagrams until one answers the question;
`resolve_host_with_bootstrap` asks one server after another, for IPv4 and
then for IPv6 addresses, and takes the first that has any.

What the socket does is the `BootstrapIo` argument: the datagrams it
delivers, in any order and from anyone the kernel lets through, and the
clock at each look at the deadline. How the DNS library reads a name is
the `NameFromStr` parameter.
-/

namespace Dotdns

open Lib

/-- `Name::from_str`, its error as text. -/
abbrev NameFromStr := Str → Except Str Name

/-! ## The socket -/

/-- One turn of the loop: the clock when it looks at the deadline, and what
`recv` returns. -/
structure BootstrapRecv where
  now : Nat
  result : Except Str (List UInt8)

/-- What socket, clock and network do during one lookup. -/
structure BootstrapIo where
  bind : Str → Except Str Unit := fun _ => .ok ()
  setReadTimeout : Except Str Unit := .ok ()
  setWriteTimeout : Except Str Unit := .ok ()
  connect : SocketAddr → Except Str Unit := fun _ => .ok ()
  /-- The clock and the counter behind the transaction ID. -/
  nanos : UInt32 := 0
  counter : UInt32 := 0
  send : List UInt8 → Except Str Unit := fun _ => .ok ()
  /-- The clock when the deadline is set. -/
  start : Nat := 0
  inbox : List BootstrapRecv := []
  /-- The last turn, with no datagram left: the clock, and the error of the
  read timeout. -/
  endsAt : Nat := 0
  ending : Str := []

/-- `bootstrap_query_id`. -/
def bootstrapQueryId (nanos counter : UInt32) : UInt16 :=
  let mixed := nanos ^^^ (counter <<< 16 ||| counter >>> 16)
  mixed.toUInt16 ^^^ (mixed >>> 16).toUInt16

/-- The read timeout, and the time the loop may take. -/
def bootstrapTimeout : Nat := Duration.fromSecs 5

/-! ## One lookup -/

/-- What the loop takes from one record of the answer section. -/
def answerAddress (recordType : RecordType) (record : Record) : Option IpAddr :=
  record.data.bind fun data =>
    match data with
    | .a ip => if recordType = .A then some (.v4 ip) else none
    | .aaaa ip => if recordType = .AAAA then some (.v6 ip) else none
    | _ => none

/-- The response has the question that was asked. -/
def questionMatches (name : Name) (recordType : RecordType) (response : Message) : Bool :=
  response.queries.any fun q => q.queryType == recordType && q.name == name

section
variable (fromBytes : FromBytes) (queryId : UInt16) (name : Name) (recordType : RecordType)

/-- The loop, over the turns that are left. -/
def bootstrapLoop (io : BootstrapIo) : List BootstrapRecv → Except UpstreamError (List IpAddr)
  | [] =>
      if io.endsAt ≥ io.start + bootstrapTimeout then .error .timeout
      else .error (.network io.ending)
  | turn :: turns =>
      if turn.now ≥ io.start + bootstrapTimeout then .error .timeout
      else match turn.result with
        | .error e => .error (.network e)
        | .ok datagram =>
            match fromBytes (datagram.take 65535) with
            | .error _ => bootstrapLoop io turns
            | .ok response =>
                if response.id != queryId then bootstrapLoop io turns
                else if response.messageType != .response then bootstrapLoop io turns
                else if !questionMatches name recordType response then bootstrapLoop io turns
                else .ok (response.answers.filterMap (answerAddress recordType))

end

section
variable (toBytes : ToBytes) (fromBytes : FromBytes) (nameFromStr : NameFromStr)

/-- The socket is set up and the query sent; with its ID and its name. -/
def sendBootstrapQuery (io : BootstrapIo) (server : SocketAddr) (host : Str)
    (recordType : RecordType) : Except UpstreamError (UInt16 × Name) := do
  let bindAddr := match server.ip with
    | .v6 _ => "[::]:0"
    | .v4 _ => "0.0.0.0:0"
  (io.bind bindAddr.toList).mapError .network
  io.setReadTimeout.mapError .network
  io.setWriteTimeout.mapError .network
  (io.connect server).mapError .network
  let name ← ((nameFromStr host).orElseLazy fun _ => nameFromStr (host ++ ['.'])).mapError
    .fromProto
  let queryId := bootstrapQueryId io.nanos io.counter
  let query : Message :=
    { id := queryId, recursionDesired := true, queries := [⟨name, recordType, .IN⟩] }
  let bytes ← (toBytes query).mapError .fromProto
  (io.send bytes).mapError .network
  .ok (queryId, name)

/-- `query_bootstrap_dns`. -/
def queryBootstrapDns (io : BootstrapIo) (server : SocketAddr) (host : Str)
    (recordType : RecordType) : Except UpstreamError (List IpAddr) := do
  let (queryId, name) ← sendBootstrapQuery toBytes nameFromStr io server host recordType
  bootstrapLoop fromBytes queryId name recordType io io.inbox

end

/-! ## What answers a lookup -/

/-- The datagrams the loop can receive: those before the deadline and
before an error of the socket. -/
def receivedBefore (deadline : Nat) : List BootstrapRecv → List (List UInt8)
  | [] => []
  | turn :: turns =>
      if turn.now ≥ deadline then []
      else match turn.result with
        | .error _ => []
        | .ok datagram => datagram :: receivedBefore deadline turns

/-- The datagrams that reach the loop in time. -/
def BootstrapIo.received (io : BootstrapIo) : List (List UInt8) :=
  receivedBefore (io.start + bootstrapTimeout) io.inbox

/-- `datagram` decodes to `response`, which answers the question. -/
structure BootstrapAnswer (fromBytes : FromBytes) (queryId : UInt16) (name : Name)
    (recordType : RecordType) (datagram : List UInt8) (response : Message) : Prop where
  decoded : fromBytes (datagram.take 65535) = .ok response
  isResponse : response.messageType = .response
  id : response.id = queryId
  question : ∃ q ∈ response.queries, q.queryType = recordType ∧ (q.name == name) = true

section
variable {fromBytes : FromBytes} {queryId : UInt16} {name : Name} {recordType : RecordType}

theorem questionMatches_iff {response : Message} :
    questionMatches name recordType response = true ↔
      ∃ q ∈ response.queries, q.queryType = recordType ∧ (q.name == name) = true := by
  simp [questionMatches]

variable (fromBytes queryId name recordType) in
/-- One turn: the loop ends, or goes on as if the datagram had not come. -/
theorem bootstrapLoop_cons (io : BootstrapIo) {turn : BootstrapRecv} (turns : List BootstrapRecv)
    {datagram : List UInt8} (hnow : turn.now < io.start + bootstrapTimeout)
    (hok : turn.result = .ok datagram) :
    (∃ response, BootstrapAnswer fromBytes queryId name recordType datagram response ∧
      bootstrapLoop fromBytes queryId name recordType io (turn :: turns) =
        .ok (response.answers.filterMap (answerAddress recordType))) ∨
    (∀ response, ¬ BootstrapAnswer fromBytes queryId name recordType datagram response) ∧
      bootstrapLoop fromBytes queryId name recordType io (turn :: turns) =
        bootstrapLoop fromBytes queryId name recordType io turns := by
  rw [bootstrapLoop, if_neg (Nat.not_le.mpr hnow), hok]
  cases hdec : fromBytes (datagram.take 65535) with
  | error e =>
      refine .inr ⟨?_, by simp only [hdec]⟩
      intro response h
      cases hdec.symm.trans h.decoded
  | ok response =>
      have honly : ∀ response',
          BootstrapAnswer fromBytes queryId name recordType datagram response' →
          response' = response := by
        intro response' h
        exact Except.ok.inj (h.decoded.symm.trans hdec)
      by_cases hid : response.id = queryId
      · by_cases htype : response.messageType = .response
        · by_cases hq : questionMatches name recordType response = true
          · refine .inl ⟨response, ⟨hdec, htype, hid, questionMatches_iff.mp hq⟩, ?_⟩
            simp [hdec, hid, htype, hq]
          · refine .inr ⟨?_, by simp [hdec, hid, htype, hq]⟩
            intro response' h
            obtain rfl := honly response' h
            exact hq (questionMatches_iff.mpr h.question)
        · refine .inr ⟨?_, by simp [hdec, hid, htype]⟩
          intro response' h
          obtain rfl := honly response' h
          exact htype h.isResponse
      · refine .inr ⟨?_, by simp [hdec, hid]⟩
        intro response' h
        obtain rfl := honly response' h
        exact hid h.id

/-- The first of the datagrams that answers the question. -/
structure FirstAnswer (fromBytes : FromBytes) (queryId : UInt16) (name : Name)
    (recordType : RecordType) (before : List (List UInt8)) (datagram : List UInt8)
    (response : Message) : Prop where
  junk : ∀ d ∈ before, ∀ r, ¬ BootstrapAnswer fromBytes queryId name recordType d r
  answer : BootstrapAnswer fromBytes queryId name recordType datagram response

variable (fromBytes queryId name recordType) in
/-- The whole loop: it returns the addresses of the first answer it
receives, or an error when it receives none. -/
theorem bootstrapLoop_cases (io : BootstrapIo) (turns : List BootstrapRecv) :
    let received := receivedBefore (io.start + bootstrapTimeout) turns
    (∃ before datagram after response, received = before ++ datagram :: after ∧
      FirstAnswer fromBytes queryId name recordType before datagram response ∧
      bootstrapLoop fromBytes queryId name recordType io turns =
        .ok (response.answers.filterMap (answerAddress recordType))) ∨
    (∀ d ∈ received, ∀ r, ¬ BootstrapAnswer fromBytes queryId name recordType d r) ∧
      ∃ e, bootstrapLoop fromBytes queryId name recordType io turns = .error e := by
  induction turns with
  | nil =>
      refine .inr ⟨by simp [receivedBefore], ?_⟩
      rw [bootstrapLoop]
      split
      · exact ⟨_, rfl⟩
      · exact ⟨_, rfl⟩
  | cons turn turns ih =>
      by_cases hnow : turn.now ≥ io.start + bootstrapTimeout
      · refine .inr ⟨by simp [receivedBefore, hnow], .timeout, ?_⟩
        rw [bootstrapLoop, if_pos hnow]
      · cases hres : turn.result with
        | error e =>
            refine .inr ⟨by simp [receivedBefore, hnow, hres], .network e, ?_⟩
            rw [bootstrapLoop, if_neg hnow, hres]
        | ok datagram =>
            have hcons : receivedBefore (io.start + bootstrapTimeout) (turn :: turns) =
                datagram :: receivedBefore (io.start + bootstrapTimeout) turns := by
              rw [receivedBefore, if_neg hnow, hres]
            rw [hcons]
            rcases bootstrapLoop_cons fromBytes queryId name recordType io turns
                (Nat.lt_of_not_le hnow) hres with
              ⟨response, hans, hloop⟩ | ⟨hjunk, hloop⟩
            · refine .inl ⟨[], datagram, _, response, rfl, ⟨?_, hans⟩, hloop⟩
              intro d hd
              cases hd
            · rw [hloop]
              rcases ih with ⟨before, d, after, response, hrec, hfirst, hok⟩ | ⟨hnone, herr⟩
              · refine .inl ⟨datagram :: before, d, after, response, ?_, ⟨?_, hfirst.answer⟩, hok⟩
                · rw [hrec]
                  rfl
                · exact List.forall_mem_cons.mpr ⟨hjunk, hfirst.junk⟩
              · exact .inr ⟨List.forall_mem_cons.mpr ⟨hjunk, hnone⟩, herr⟩

/-- Two first answers are at the same place. -/
theorem FirstAnswer.unique {before before' after after' : List (List UInt8)}
    {datagram datagram' : List UInt8} {response response' : Message}
    (h : FirstAnswer fromBytes queryId name recordType before datagram response)
    (h' : FirstAnswer fromBytes queryId name recordType before' datagram' response')
    (heq : before ++ datagram :: after = before' ++ datagram' :: after') :
    response = response' := by
  induction before generalizing before' with
  | nil =>
      cases before' with
      | nil =>
          obtain ⟨rfl, _⟩ := List.cons.inj heq
          exact Except.ok.inj (h.answer.decoded.symm.trans h'.answer.decoded)
      | cons d before' =>
          obtain ⟨rfl, _⟩ := List.cons.inj heq
          exact absurd h.answer (h'.junk _ List.mem_cons_self _)
  | cons d before ih =>
      cases before' with
      | nil =>
          obtain ⟨rfl, _⟩ := List.cons.inj heq
          exact absurd h'.answer (h.junk _ List.mem_cons_self _)
      | cons d' before' =>
          obtain ⟨_, htail⟩ := List.cons.inj heq
          exact ih ⟨fun x hx => h.junk x (List.mem_cons_of_mem _ hx), h.answer⟩
            ⟨fun x hx => h'.junk x (List.mem_cons_of_mem _ hx), h'.answer⟩ htail

/-- A loop that receives a first answer returns its addresses. -/
theorem bootstrapLoop_of_first {io : BootstrapIo} {turns : List BootstrapRecv}
    {before after : List (List UInt8)} {datagram : List UInt8} {response : Message}
    (hrec : receivedBefore (io.start + bootstrapTimeout) turns = before ++ datagram :: after)
    (h : FirstAnswer fromBytes queryId name recordType before datagram response) :
    bootstrapLoop fromBytes queryId name recordType io turns =
      .ok (response.answers.filterMap (answerAddress recordType)) := by
  rcases bootstrapLoop_cases fromBytes queryId name recordType io turns with
    ⟨before', d, after', response', hrec', hfirst, hok⟩ | ⟨hnone, _⟩
  · rw [hok, hfirst.unique h (hrec'.symm.trans hrec)]
  · apply absurd h.answer
    apply hnone
    rw [hrec]
    simp

variable {toBytes : ToBytes} {nameFromStr : NameFromStr} {io : BootstrapIo} {server : SocketAddr}
  {host : Str}

theorem queryBootstrapDns_of_sent
    (h : sendBootstrapQuery toBytes nameFromStr io server host recordType = .ok (queryId, name)) :
    queryBootstrapDns toBytes fromBytes nameFromStr io server host recordType =
      bootstrapLoop fromBytes queryId name recordType io io.inbox := by
  rw [queryBootstrapDns, h]
  rfl

/-- The lookup as a whole. -/
theorem queryBootstrapDns_cases (toBytes : ToBytes) (fromBytes : FromBytes)
    (nameFromStr : NameFromStr) (io : BootstrapIo) (server : SocketAddr) (host : Str)
    (recordType : RecordType) :
    (∃ queryId name before datagram after response,
      sendBootstrapQuery toBytes nameFromStr io server host recordType = .ok (queryId, name) ∧
      io.received = before ++ datagram :: after ∧
      FirstAnswer fromBytes queryId name recordType before datagram response ∧
      queryBootstrapDns toBytes fromBytes nameFromStr io server host recordType =
        .ok (response.answers.filterMap (answerAddress recordType))) ∨
    ∃ e, queryBootstrapDns toBytes fromBytes nameFromStr io server host recordType = .error e := by
  cases hs : sendBootstrapQuery toBytes nameFromStr io server host recordType with
  | error e =>
      refine .inr ⟨e, ?_⟩
      rw [queryBootstrapDns, hs]
      rfl
  | ok pair =>
      obtain ⟨queryId, name⟩ := pair
      rw [queryBootstrapDns_of_sent hs]
      rcases bootstrapLoop_cases fromBytes queryId name recordType io io.inbox with
        ⟨before, d, after, response, hrec, hfirst, hok⟩ | ⟨_, herr⟩
      · exact .inl ⟨queryId, name, before, d, after, response, rfl, hrec, hfirst, hok⟩
      · exact .inr herr

end

/-- **Bootstrap lookups.** For every server, host, record type and
behaviour of the socket: the lookup returns addresses exactly when the
query is sent and some datagram received answers it, and these are then
the addresses of the first such datagram, in order; whatever came before it
and after it makes no difference; and a lookup that receives no answer ends
in an error. -/
theorem bootstrap_first_answer (toBytes : ToBytes) (fromBytes : FromBytes)
    (nameFromStr : NameFromStr) (io : BootstrapIo) (server : SocketAddr) (host : Str)
    (recordType : RecordType) :
    let query := fun io => queryBootstrapDns toBytes fromBytes nameFromStr io server host recordType
    let sent := fun io => sendBootstrapQuery toBytes nameFromStr io server host recordType
    (∀ ips, query io = .ok ips ↔
      ∃ queryId name before datagram after response, sent io = .ok (queryId, name) ∧
        io.received = before ++ datagram :: after ∧
        FirstAnswer fromBytes queryId name recordType before datagram response ∧
        ips = response.answers.filterMap (answerAddress recordType)) ∧
    (∀ io' queryId name before before' datagram after after' response,
      sent io = .ok (queryId, name) → sent io' = .ok (queryId, name) →
      io.received = before ++ datagram :: after → io'.received = before' ++ datagram :: after' →
      FirstAnswer fromBytes queryId name recordType before datagram response →
      FirstAnswer fromBytes queryId name recordType before' datagram response →
      query io' = query io) ∧
    ((∀ queryId name, sent io = .ok (queryId, name) → ∀ d ∈ io.received, ∀ response,
        ¬ BootstrapAnswer fromBytes queryId name recordType d response) →
      ∃ e, query io = .error e) := by
  intro query sent
  refine ⟨?_, ?_, ?_⟩
  · intro ips
    constructor
    · intro h
      rcases queryBootstrapDns_cases toBytes fromBytes nameFromStr io server host recordType with
        ⟨queryId, name, before, d, after, response, hs, hrec, hfirst, hok⟩ | ⟨e, herr⟩
      · exact ⟨queryId, name, before, d, after, response, hs, hrec, hfirst,
          Except.ok.inj (h.symm.trans hok)⟩
      · cases herr.symm.trans h
    · intro h
      obtain ⟨queryId, name, before, d, after, response, hs, hrec, hfirst, rfl⟩ := h
      exact (queryBootstrapDns_of_sent hs).trans (bootstrapLoop_of_first hrec hfirst)
  -- what is thrown away before the first answer has no say in the result
  · intro io' queryId name before before' d after after' response hs hs' hrec hrec' hfirst hfirst'
    calc query io'
        = .ok (response.answers.filterMap (answerAddress recordType)) :=
          (queryBootstrapDns_of_sent hs').trans (bootstrapLoop_of_first hrec' hfirst')
      _ = query io := by
          rw [← bootstrapLoop_of_first hrec hfirst]
          exact (queryBootstrapDns_of_sent hs).symm
  · intro h
    rcases queryBootstrapDns_cases toBytes fromBytes nameFromStr io server host recordType with
      ⟨queryId, name, before, d, after, response, hs, hrec, hfirst, _⟩ | herr
    · apply absurd hfirst.answer
      apply h queryId name hs
      rw [hrec]
      simp
    · exact herr

/-- Garbage and an answer to another query, then the answer. -/
theorem bootstrap_first_answer_after_junk :
    let name : Name := ⟨[labelOf "resolver", labelOf "example"], true⟩
    let answer : Message :=
      { id := bootstrapQueryId 7 0, messageType := .response, queries := [⟨name, .A, .IN⟩],
        answers := [.fromRdata name 60 (.a 0xC000020A)] }
    let fromBytes : FromBytes := fun bytes =>
      match bytes with
      | [0] => .error "garbage".toList
      | [1] => .ok { answer with id := answer.id + 1 }
      | _ => .ok answer
    let io : BootstrapIo :=
      { nanos := 7
        inbox := [⟨1, .ok [0]⟩, ⟨2, .ok [1]⟩, ⟨3, .ok [2]⟩] }
    queryBootstrapDns (fun _ => .ok []) fromBytes (fun _ => .ok name) io ⟨.v4 0x01010101, 53⟩
      "resolver.example.".toList .A = .ok [.v4 0xC000020A] := by
  intro name answer fromBytes io
  refine ((bootstrap_first_answer _ fromBytes _ io _ _ _).1 _).mpr
    ⟨_, name, [[0], [1]], [2], [], answer, rfl, rfl,
      ⟨?_, ⟨rfl, rfl, rfl, _, List.mem_cons_self, rfl, rfl⟩⟩, rfl⟩
  intro d hd r h
  simp only [List.mem_cons, List.not_mem_nil, or_false] at hd
  rcases hd with rfl | rfl
  · cases h.decoded
  · have hid := h.id
    cases h.decoded
    revert hid
    decide

/-! ## One server after another -/

section
variable (lookup : Nat → SocketAddr → RecordType → Except UpstreamError (List IpAddr))
  (showAddr : SocketAddr → Str) (host : Str)

/-- One of the two lookups at a server, into the two accumulators. -/
def appendLookup (k : Nat) (server : SocketAddr) (recordType : RecordType) (label : String)
    (acc : List IpAddr × List Str) : List IpAddr × List Str :=
  match lookup k server recordType with
  | .ok ips => (acc.1 ++ ips, acc.2)
  | .error e => (acc.1, acc.2 ++ [showAddr server ++ label.toList ++ e.display])

/-- The loop over the servers; `k` counts them. -/
def bootstrapServers :
    Nat → List SocketAddr → List IpAddr × List Str → Except UpstreamError (List IpAddr)
  | _, [], (_, errors) =>
      if errors = [] then
        .error (.network ("failed to resolve host ".toList ++ host ++
          ": no bootstrap DNS servers configured".toList))
      else
        .error (.network ("failed to resolve host ".toList ++ host ++
          " via bootstrap DNS: ".toList ++ "; ".toList.intercalate errors))
  | k, server :: servers, acc =>
      let acc := appendLookup lookup showAddr k server .A " A: " acc
      let acc := appendLookup lookup showAddr k server .AAAA " AAAA: " acc
      if acc.1 ≠ [] then .ok (dedup acc.1) else bootstrapServers (k + 1) servers acc

/-- `resolve_host_with_bootstrap`, with what the lookup at the `k`th server
returns. -/
def resolveHostWithBootstrap (bootstrapDns : List SocketAddr) :
    Except UpstreamError (List IpAddr) :=
  bootstrapServers lookup showAddr host 0 bootstrapDns ([], [])

/-- The addresses of the `k`th server: its IPv4 lookup, then its IPv6
lookup. -/
def yielded (k : Nat) (server : SocketAddr) : List IpAddr :=
  (lookup k server .A).toOption.getD [] ++ (lookup k server .AAAA).toOption.getD []

/-- The `k`th server is the first that yields an address, and yields
`ips`. -/
structure FirstYield (bootstrapDns : List SocketAddr) (k : Nat) (ips : List IpAddr) : Prop where
  here : (bootstrapDns[k]?).map (yielded lookup k) = some ips
  nonempty : ips ≠ []
  before : ∀ j < k, ∀ server, bootstrapDns[j]? = some server → yielded lookup j server = []

end

section
variable {lookup : Nat → SocketAddr → RecordType → Except UpstreamError (List IpAddr)}
  {showAddr : SocketAddr → Str} {host : Str}

theorem appendLookup_fst (k : Nat) (server : SocketAddr) (recordType : RecordType) (label : String)
    (acc : List IpAddr × List Str) :
    (appendLookup lookup showAddr k server recordType label acc).1 =
      acc.1 ++ (lookup k server recordType).toOption.getD [] := by
  unfold appendLookup
  cases lookup k server recordType <;> simp [Except.toOption]

variable (lookup showAddr host) in
/-- The loop stops at the first server that yields an address. -/
theorem bootstrapServers_cases (k : Nat) (servers : List SocketAddr) (errors : List Str) :
    (∃ j server, servers[j]? = some server ∧ yielded lookup (k + j) server ≠ [] ∧
      (∀ i < j, ∀ server', servers[i]? = some server' → yielded lookup (k + i) server' = []) ∧
      bootstrapServers lookup showAddr host k servers ([], errors) =
        .ok (dedup (yielded lookup (k + j) server))) ∨
    (∀ (j : Nat) (server : SocketAddr), servers[j]? = some server →
        yielded lookup (k + j) server = []) ∧
      ∃ e, bootstrapServers lookup showAddr host k servers ([], errors) = .error e := by
  induction servers generalizing k errors with
  | nil =>
      refine .inr ⟨by simp, ?_⟩
      rw [bootstrapServers]
      split
      · exact ⟨_, rfl⟩
      · exact ⟨_, rfl⟩
  | cons server servers ih =>
      rw [bootstrapServers]
      generalize hacc : appendLookup lookup showAddr k server .AAAA " AAAA: "
        (appendLookup lookup showAddr k server .A " A: " ([], errors)) = acc
      have hips : acc.1 = yielded lookup k server := by
        rw [← hacc, appendLookup_fst, appendLookup_fst, List.nil_append]
        rfl
      -- nothing from this server: the next one is asked
      by_cases hne : acc.1 = []
      · have hhead : yielded lookup k server = [] := hips ▸ hne
        have hpair : acc = ([], acc.2) := Prod.ext hne rfl
        have hshift : ∀ j, yielded lookup (k + (j + 1)) = yielded lookup (k + 1 + j) := by
          intro j
          rw [← Nat.add_assoc, Nat.add_right_comm]
        rw [if_neg (not_not.mpr hne), hpair]
        rcases ih (k + 1) acc.2 with ⟨j, server', hget, hyield, hbefore, hok⟩ | ⟨hnone, herr⟩
        · refine .inl ⟨j + 1, server', hget, ?_, ?_, ?_⟩
          · rw [hshift]
            exact hyield
          · intro i hi server'' hget''
            cases i with
            | zero =>
                obtain rfl := Option.some.inj hget''
                exact hhead
            | succ i =>
                rw [hshift]
                exact hbefore i (by omega) server'' hget''
          · rw [hok, hshift]
        · refine .inr ⟨?_, herr⟩
          intro j server' hget
          cases j with
          | zero =>
              obtain rfl := Option.some.inj hget
              exact hhead
          | succ j =>
              rw [hshift]
              exact hnone j server' hget
      · rw [if_pos hne, hips]
        refine .inl ⟨0, server, rfl, hips ▸ hne, ?_, rfl⟩
        intro i hi
        cases hi

variable (lookup showAddr host) in
/-- The whole resolution: the first server that yields an address, or an
error. -/
theorem resolveHostWithBootstrap_cases (bootstrapDns : List SocketAddr) :
    (∃ k ips, FirstYield lookup bootstrapDns k ips ∧
      resolveHostWithBootstrap lookup showAddr host bootstrapDns = .ok (dedup ips)) ∨
    (∀ k ips, ¬ FirstYield lookup bootstrapDns k ips) ∧
      (∀ (k : Nat) (server : SocketAddr), bootstrapDns[k]? = some server →
        yielded lookup k server = []) ∧
      ∃ e, resolveHostWithBootstrap lookup showAddr host bootstrapDns = .error e := by
  rcases bootstrapServers_cases lookup showAddr host 0 bootstrapDns [] with
    ⟨k, server, hget, hne, hbefore, hok⟩ | ⟨hnone, herr⟩
  · simp only [Nat.zero_add] at hne hbefore hok
    exact .inl ⟨k, _, ⟨by rw [hget]; rfl, hne, hbefore⟩, hok⟩
  · simp only [Nat.zero_add] at hnone
    refine .inr ⟨?_, hnone, herr⟩
    intro k ips h
    obtain ⟨server, hget, hips⟩ := Option.map_eq_some_iff.mp h.here
    exact h.nonempty (hips ▸ hnone k server hget)

theorem FirstYield.unique {bootstrapDns : List SocketAddr} {k k' : Nat} {ips ips' : List IpAddr}
    (h : FirstYield lookup bootstrapDns k ips) (h' : FirstYield lookup bootstrapDns k' ips') :
    ips = ips' := by
  obtain ⟨server, hget, hips⟩ := Option.map_eq_some_iff.mp h.here
  obtain ⟨server', hget', hips'⟩ := Option.map_eq_some_iff.mp h'.here
  rcases Nat.lt_trichotomy k k' with hlt | rfl | hlt
  · exact absurd (hips ▸ h'.before k hlt server hget) h.nonempty
  · exact Option.some.inj (h.here.symm.trans h'.here)
  · exact absurd (hips' ▸ h.before k' hlt server' hget') h'.nonempty

end

/-- `IpAddr::is_ipv4`. -/
def IpAddr.isIpv4 : IpAddr → Bool
  | .v4 _ => true
  | .v6 _ => false

/-- What a resolution should return, given what the lookups yield. -/
structure ResolvesOnce
    (lookup : Nat → SocketAddr → RecordType → Except UpstreamError (List IpAddr))
    (bootstrapDns : List SocketAddr) (result : Except UpstreamError (List IpAddr)) : Prop where
  ok : (∃ addrs, result = .ok addrs) ↔
    ∃ k server, bootstrapDns[k]? = some server ∧ yielded lookup k server ≠ []
  mem : ∀ k ips addrs, FirstYield lookup bootstrapDns k ips → result = .ok addrs →
    ∀ ip, ip ∈ addrs ↔ ip ∈ ips
  once : ∀ addrs, result = .ok addrs → addrs.Nodup
  v4First : ∀ addrs, result = .ok addrs → ∃ v4s v6s, addrs = v4s ++ v6s ∧
    (∀ ip ∈ v4s, ip.isIpv4 = true) ∧ ∀ ip ∈ v6s, ip.isIpv4 = false

section
variable (toBytes : ToBytes) (fromBytes : FromBytes) (nameFromStr : NameFromStr)

/-- The lookups of one resolution: each has a socket of its own. -/
def bootstrapLookup (io : Nat → RecordType → BootstrapIo) (host : Str) (k : Nat)
    (server : SocketAddr) (recordType : RecordType) : Except UpstreamError (List IpAddr) :=
  queryBootstrapDns toBytes fromBytes nameFromStr (io k recordType) server host recordType

variable {toBytes fromBytes nameFromStr}

/-- What a lookup returns is taken from records of its own type. -/
theorem mem_queryBootstrapDns {io : BootstrapIo} {server : SocketAddr} {host : Str}
    {recordType : RecordType} {ips : List IpAddr}
    (h : queryBootstrapDns toBytes fromBytes nameFromStr io server host recordType = .ok ips)
    {ip : IpAddr} (hip : ip ∈ ips) : ∃ record, answerAddress recordType record = some ip := by
  rcases queryBootstrapDns_cases toBytes fromBytes nameFromStr io server host recordType with
    ⟨_, _, _, _, _, response, _, _, _, hok⟩ | ⟨e, herr⟩
  · obtain rfl := Except.ok.inj (hok.symm.trans h)
    obtain ⟨record, _, hrecord⟩ := List.mem_filterMap.mp hip
    exact ⟨record, hrecord⟩
  · cases herr.symm.trans h

theorem isIpv4_answerAddress {record : Record} {ip : IpAddr} {recordType : RecordType}
    (h : answerAddress recordType record = some ip) :
    ip.isIpv4 = decide (recordType = .A) := by
  obtain ⟨data, _, hdata⟩ := Option.bind_eq_some_iff.mp h
  split at hdata
  · obtain ⟨htype, heq⟩ := Option.ite_none_right_eq_some.mp hdata
    cases heq
    simp [htype, IpAddr.isIpv4]
  · obtain ⟨htype, heq⟩ := Option.ite_none_right_eq_some.mp hdata
    cases heq
    simp [htype, IpAddr.isIpv4]
  · cases hdata

/-- An IPv4 lookup yields IPv4 addresses, an IPv6 lookup IPv6 addresses. -/
theorem isIpv4_bootstrapLookup {io : Nat → RecordType → BootstrapIo} {host : Str} {k : Nat}
    {server : SocketAddr} {recordType : RecordType} {ip : IpAddr}
    (h : ip ∈ (bootstrapLookup toBytes fromBytes nameFromStr io host k server
      recordType).toOption.getD []) : ip.isIpv4 = decide (recordType = .A) := by
  cases hres : bootstrapLookup toBytes fromBytes nameFromStr io host k server recordType with
  | error e => simp [hres, Except.toOption] at h
  | ok ips =>
      rw [hres] at h
      obtain ⟨record, hrecord⟩ := mem_queryBootstrapDns hres h
      exact isIpv4_answerAddress hrecord

end

/-- **Resolving by bootstrap servers.** For every list of servers and every
outcome of each lookup: the resolution succeeds exactly when some server
yields an address, with exactly the addresses of the first such server,
each once and IPv4 first, if and only if that server's repeated addresses
stand next to each other. -/
theorem bootstrap_resolves_once_iff (toBytes : ToBytes) (fromBytes : FromBytes)
    (nameFromStr : NameFromStr) (showAddr : SocketAddr → Str)
    (io : Nat → RecordType → BootstrapIo) (host : Str) (bootstrapDns : List SocketAddr) :
    let lookup := bootstrapLookup toBytes fromBytes nameFromStr io host
    ResolvesOnce lookup bootstrapDns
        (resolveHostWithBootstrap lookup showAddr host bootstrapDns) ↔
      ∀ k ips, FirstYield lookup bootstrapDns k ips → Grouped ips := by
  intro lookup
  rcases resolveHostWithBootstrap_cases lookup showAddr host bootstrapDns with
    ⟨k, ips, hfirst, hok⟩ | ⟨hnone, hempty, e, herr⟩
  -- `dedup` leaves the answer distinct only when equal addresses stand together
  · constructor
    · intro h k' ips' hfirst'
      rw [← hfirst.unique hfirst', ← nodup_dedup_iff]
      exact h.once _ hok
    · intro hgrouped
      obtain ⟨server, hget, hips⟩ := Option.map_eq_some_iff.mp hfirst.here
      have haddrs : ∀ {addrs}, resolveHostWithBootstrap lookup showAddr host bootstrapDns =
          .ok addrs → addrs = dedup ips :=
        fun h => Except.ok.inj (h.symm.trans hok)
      refine ⟨iff_of_true ⟨_, hok⟩ ⟨k, server, hget, hips ▸ hfirst.nonempty⟩, ?_, ?_, ?_⟩
      · intro k' ips' addrs hfirst' hres ip
        rw [haddrs hres, ← hfirst.unique hfirst']
        exact mem_dedup
      · intro addrs hres
        rw [haddrs hres]
        exact nodup_dedup_iff.mpr (hgrouped k ips hfirst)
      · intro addrs hres
        have hsub := dedup_sublist ips
        rw [← haddrs hres, ← hips, yielded, List.sublist_append_iff] at hsub
        obtain ⟨v4s, v6s, heq, hv4, hv6⟩ := hsub
        refine ⟨v4s, v6s, heq, ?_, ?_⟩
        · intro ip hip
          exact isIpv4_bootstrapLookup (hv4.subset hip)
        · intro ip hip
          exact isIpv4_bootstrapLookup (hv6.subset hip)
  -- no server yields an address, and there is nothing to be repeated
  · refine iff_of_true ⟨iff_of_false ?_ ?_, ?_, ?_, ?_⟩ ?_
    · intro h
      obtain ⟨addrs, hok⟩ := h
      cases herr.symm.trans hok
    · intro h
      obtain ⟨k, server, hget, hne⟩ := h
      exact hne (hempty k server hget)
    · intro k ips addrs hfirst
      exact absurd hfirst (hnone k ips)
    · intro addrs hok
      cases herr.symm.trans hok
    · intro addrs hok
      cases herr.symm.trans hok
    · intro k ips hfirst
      exact absurd hfirst (hnone k ips)

/-- A server whose IPv4 answer names one address, another, and the first
again: all three are returned. -/
theorem bootstrap_keeps_repetition :
    let name : Name := ⟨[labelOf "resolver", labelOf "example"], true⟩
    let answer : Message :=
      { id := bootstrapQueryId 7 0, messageType := .response, queries := [⟨name, .A, .IN⟩],
        answers := [.fromRdata name 60 (.a 0xC000020A), .fromRdata name 60 (.a 0xC000020B),
          .fromRdata name 60 (.a 0xC000020A)] }
    let lookup := bootstrapLookup (fun _ => .ok []) (fun _ => .ok answer) (fun _ => .ok name)
      (fun _ _ => { nanos := 7, inbox := [⟨1, .ok []⟩] }) "resolver.example.".toList
    let servers : List SocketAddr := [⟨.v4 0x01010101, 53⟩]
    let addrs : List IpAddr := [.v4 0xC000020A, .v4 0xC000020B, .v4 0xC000020A]
    resolveHostWithBootstrap lookup (fun _ => []) "resolver.example.".toList servers = .ok addrs ∧
      ¬ ResolvesOnce lookup servers
        (resolveHostWithBootstrap lookup (fun _ => []) "resolver.example.".toList servers) := by
  intro name answer lookup servers addrs
  have hok : resolveHostWithBootstrap lookup (fun _ => []) "resolver.example.".toList servers =
      .ok addrs := rfl
  refine ⟨hok, ?_⟩
  intro h
  have honce := h.once addrs hok
  revert honce
  decide

end Dotdns
