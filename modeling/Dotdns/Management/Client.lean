import Dotdns.Management.Connections

/-!
# Management — the client

`ManagementClient`: one request on a connection of its own, one line back.
Eight methods send the eight requests; each takes its own part out of the
response.

The headline joins the two ends: a method returns what the server found at
the one `dispatch` of its request, or the error that says why not.
-/

namespace Dotdns

open Lib

namespace ManagementClient

/-! ## One exchange -/

/-- What the two ends of a client's connection give it: connecting, writing
the request and reading the reply. `target` is the server's address. -/
structure Io where
  target : Str
  connect : Except Str Unit
  write : Except Str Unit
  reply : LineStream

section
variable (codec : ManagementCodec)

/-- `exchange` from its `read_line` on; `none` while it waits. -/
def response (reply : LineStream) : Option (Except ManagementError ManagementResponse) :=
  match reply.readLine with
  | some (.eof, _) => some (.error (.connection "server closed connection".toList))
  | some (.line text, _) =>
      let trimmed := trim text
      some (if trimmed = [] then .error (.connection "empty response".toList)
        else (codec.responseOf trimmed).mapError fun e =>
          .request ("invalid response: ".toList ++ e))
  | some (.error e, _) => some (.error (.connection e))
  | none => none

/-- `send_request`; `none` while the server is silent. -/
def sendRequest (io : Io) (req : ManagementRequest) :
    Option (Except ManagementError ManagementResponse) :=
  match codec.requestJson req with
  | .error e => some (.error (.request e))
  | .ok _ =>
      match io.connect with
      | .error e =>
          some (.error (.connection
            ("failed to connect to ".toList ++ io.target ++ ": ".toList ++ e)))
      | .ok () =>
          match io.write with
          | .error e => some (.error (.connection e))
          | .ok () => response codec io.reply

/-- What a client that asks for `req` writes. -/
def requestBytes (req : ManagementRequest) : Except ManagementError (List UInt8) :=
  ((codec.requestJson req).mapError .request).map fun json => utf8 json ++ [lineFeed]

end

/-! ## The methods -/

/-- The part `get` of a response, unless the server reports an error. -/
def fetch {α : Type} (get : ManagementResponse → Option α) (missing : Str)
    (result : Except ManagementError ManagementResponse) : Except ManagementError α := do
  let resp ← result
  if resp.status ≠ "ok".toList then .error (.request (resp.message.getD []))
  else
    match get resp with
    | some a => .ok a
    | none => .error (.request missing)

def status := fetch ManagementResponse.metrics "missing metrics in status response".toList

def tracking := fetch ManagementResponse.metrics "missing metrics in tracking response".toList

def activity := fetch ManagementResponse.metrics "missing metrics in activity response".toList

def sources := fetch ManagementResponse.upstreams "missing upstreams in sources response".toList

def sourcestats :=
  fetch ManagementResponse.upstreams "missing upstreams in sourcestats response".toList

def clients := fetch ManagementResponse.clients "missing clients in clients response".toList

/-- Nothing is taken out of the response. -/
def cacheFlush := fetch (fun _ => some ()) []

def blocklistReload := fetch (fun _ => some ()) []

end ManagementClient

/-- What the method for a request returns. -/
def ManagementRequest.Value : ManagementRequest → Type
  | .status | .tracking | .activity => MetricsSnapshot
  | .cacheFlush | .blocklistReload => Unit
  | .sources | .sourcestats => List UpstreamSnapshot
  | .clients => List ClientSnapshot

namespace ManagementClient

/-- The method for a request. -/
def method (result : Except ManagementError ManagementResponse) :
    (req : ManagementRequest) → Except ManagementError req.Value
  | .status => status result
  | .cacheFlush => cacheFlush result
  | .blocklistReload => blocklistReload result
  | .tracking => tracking result
  | .sources => sources result
  | .sourcestats => sourcestats result
  | .activity => activity result
  | .clients => clients result

end ManagementClient

/-! ## What a method returns -/

/-- What a server that stands in state `t` has for each request. -/
def ManagementServer.returns (srv : ManagementServer) (t : ResolverState) (io : ReloadIo)
    (disk : Disk) : (req : ManagementRequest) → Except ManagementError req.Value
  | .status | .tracking | .activity => .ok (srv.snapshot t)
  | .cacheFlush => .ok ()
  | .blocklistReload =>
      match (t.blocklist.refreshAndReload srv.U io disk).1 with
      | .ok _ => .ok ()
      | .error e => .error (.request ("reload failed: ".toList ++ srv.codec.reloadError e))
  | .sources | .sourcestats =>
      match t.observability with
      | some reg => .ok reg.upstreamSnapshot
      | none => .error (.request "observability not available".toList)
  | .clients =>
      match t.observability with
      | some reg => .ok reg.clientSnapshot
      | none => .error (.request "observability not available".toList)

/-- Every method finds its own part in the response to its own request. -/
theorem ManagementClient.method_dispatch (srv : ManagementServer) (t : ResolverState)
    (req : ManagementRequest) (io : ReloadIo) (disk : Disk) :
    method (.ok (srv.dispatch t req io disk)) req = srv.returns t io disk req := by
  cases req with
  | status => rfl
  | cacheFlush => rfl
  | blocklistReload =>
      simp only [method, ManagementServer.returns, ManagementServer.dispatch]
      cases (t.blocklist.refreshAndReload srv.U io disk).1 <;> rfl
  | tracking => rfl
  | sources =>
      simp only [method, ManagementServer.returns, ManagementServer.dispatch,
        ManagementServer.observed]
      cases t.observability <;> rfl
  | sourcestats =>
      simp only [method, ManagementServer.returns, ManagementServer.dispatch,
        ManagementServer.observed]
      cases t.observability <;> rfl
  | activity => rfl
  | clients =>
      simp only [method, ManagementServer.returns, ManagementServer.dispatch,
        ManagementServer.observed]
      cases t.observability <;> rfl

/-! ## The two ends -/

/-- The JSON of a request or a response is one line, and reads back. -/
structure ManagementCodec.Faithful (codec : ManagementCodec) : Prop where
  request : ∀ req json, codec.requestJson req = .ok json →
    '\n' ∉ json ∧ trim json ≠ [] ∧ codec.requestOf (trim json) = .ok req
  response : ∀ resp json, codec.responseJson resp = .ok json →
    '\n' ∉ json ∧ trim json ≠ [] ∧ codec.responseOf (trim json) = .ok resp

/-- What the client finds on the connection: the server's end is dropped
when its task is over. -/
def ManagementConn.reply (c : ManagementConn) : LineStream where
  bytes := c.output
  ending :=
    match c.phase with
    | .returned _ => .closed
    | _ => .silent

/-- A client at the other end of connection `c`. -/
def ManagementClient.Io.to (target : Str) (c : ManagementConn) : ManagementClient.Io :=
  ⟨target, .ok (), .ok (), c.reply⟩

section
variable {codec : ManagementCodec} {c : ManagementConn} {json : Str}

/-- The line feed is white space. -/
theorem trim_line (text : Str) : trim (text ++ ['\n']) = trim text :=
  trim_append_append (a := []) (fun _ h => by cases h) fun c hc => by
    rw [List.mem_singleton.mp hc]
    rfl

/-- A stream of one line has one request. -/
theorem requestLines_single (hfeed : '\n' ∉ json) (hblank : trim json ≠ []) {source : LineStream}
    (hsource : source.bytes = utf8 json ++ [lineFeed]) : requestLines source = [trim json] := by
  have hread : source.readLine = some (.line (json ++ ['\n']), ⟨[], source.ending⟩) := by
    rw [← LineStream.readLine_text hfeed [] source.ending, ← hsource]
  rw [requestLines_readLine hread, trim_line, if_neg hblank]
  rfl

/-- A connection with one request line has sent nothing yet, or the one
response. -/
theorem ManagementConn.Ok.single (h : c.Ok codec) {line : Str}
    (hline : requestLines c.source = [line]) (hup : ∀ e, c.phase ≠ .returned (.error e)) :
    (c.output = [] ∧ c.reply.ending = .silent) ∨
      ∃ resp json, c.answered = [(line, resp)] ∧ codec.responseJson resp = .ok json ∧
        c.output = utf8 json ++ [lineFeed] := by
  have hnone : ∀ {bytes}, Sent codec [] bytes → bytes = [] := by
    rintro bytes ⟨jsons, hall, rfl⟩
    cases hall
    rfl
  have hone : ∀ {a}, Sent codec [a] c.output →
      ∃ json, codec.responseJson a.2 = .ok json ∧ c.output = utf8 json ++ [lineFeed] := by
    rintro a ⟨jsons, hall, hout⟩
    obtain ⟨json, rest, hjson, hrest, rfl⟩ := List.forall₂_cons_left_iff.mp hall
    cases hrest
    exact ⟨json, hjson, by simpa using hout⟩
  -- at most one line has been answered
  have hanswered : ∀ {rest}, c.lines ++ rest = [line] →
      c.answered = [] ∨ ∃ resp, c.answered = [(line, resp)] ∧ rest = [] := by
    intro rest hlines
    match ha : c.answered with
    | [] => exact .inl rfl
    | [(l, resp)] =>
        rw [lines, ha] at hlines
        obtain ⟨hl, hrest⟩ := List.cons.inj hlines
        exact .inr ⟨resp, by rw [show l = line from hl], hrest⟩
    | _ :: _ :: _ =>
        rw [lines, ha] at hlines
        cases (List.cons.inj hlines).2
  rw [Ok, hline] at h
  cases hphase : c.phase with
  | reading =>
      rw [hphase] at h
      rcases hanswered h.2 with ha | ⟨resp, ha, _⟩
      · exact .inl ⟨hnone (ha ▸ h.1), by rw [reply, hphase]⟩
      · obtain ⟨json, hjson, hout⟩ := hone (ha ▸ h.1)
        exact .inr ⟨resp, json, ha, hjson, hout⟩
  | dispatching l req =>
      rw [hphase] at h
      rcases hanswered h.2.1 with ha | ⟨resp, _, hrest⟩
      · exact .inl ⟨hnone (ha ▸ h.1), by rw [reply, hphase]⟩
      · cases hrest
  | sending resp =>
      rw [hphase] at h
      obtain ⟨hlines, done, l, hdone, hsent⟩ := h
      rcases hanswered hlines with ha | ⟨resp', ha, _⟩
      · rw [ha] at hdone
        exact absurd hdone.symm (List.append_ne_nil_of_right_ne_nil done (List.cons_ne_nil _ _))
      · rw [ha] at hdone
        have hnil : done = [] := by
          have hlen := congrArg List.length hdone
          simp only [List.length_append, List.length_cons, List.length_nil] at hlen
          exact List.length_eq_zero_iff.mp (by omega)
        exact .inl ⟨hnone (hnil ▸ hsent), by rw [reply, hphase]⟩
  | returned result =>
      cases result with
      | error e => exact absurd hphase (hup e)
      | ok u =>
          rw [hphase] at h
          obtain ⟨hsent, hlines⟩ := h
          rcases hanswered (show c.lines ++ [] = [line] by rw [List.append_nil, hlines]) with
            ha | ⟨resp, ha, _⟩
          · rw [lines, ha] at hlines
            cases hlines
          · obtain ⟨json, hjson, hout⟩ := hone (ha ▸ hsent)
            exact .inr ⟨resp, json, ha, hjson, hout⟩

theorem ManagementClient.response_of_sent (hf : codec.Faithful) {resp : ManagementResponse}
    (hjson : codec.responseJson resp = .ok json) (ending : StreamEnd) :
    response codec ⟨utf8 json ++ [lineFeed], ending⟩ = some (.ok resp) := by
  obtain ⟨hfeed, hblank, hback⟩ := hf.response resp json hjson
  simp only [response, LineStream.readLine_text hfeed [] ending, trim_line, if_neg hblank, hback]
  rfl

end

/-- **A method returns what its request was answered with.** Whatever other
connections and the resolver do meanwhile: as long as the server's task has
not failed, a client that has sent its request waits while nothing has been
written to it, and else its request has been dispatched exactly once and the
method returns what the server had for it in the state it was dispatched in. -/
theorem client_gets_dispatch (srv : ManagementServer) (text : LabelText) (cfg : ResolveConfig)
    (r₀ : ResolverState) (es : List ManagementEvent) (s : ManagementState)
    (hrun : run (ManagementState.step srv text cfg) ⟨r₀, []⟩ es = some s)
    (hfaithful : srv.codec.Faithful) {i : Nat} {c : ManagementConn} {req : ManagementRequest}
    (hc : s.conns[i]? = some c)
    (hsent : ManagementClient.requestBytes srv.codec req = .ok c.source.bytes)
    (hup : ∀ e, c.phase ≠ .returned (.error e)) (target : Str) :
    let result := ManagementClient.sendRequest srv.codec (.to target c) req
    result = none ∧ c.output = [] ∨
      ∃ io disk t t',
        Takes (ManagementState.step srv text cfg) ⟨r₀, []⟩ es t (.dispatch i io disk) t' ∧
        t'.resolver = t.resolver.dispatch srv.U req io disk ∧
        requestsOf i (trace (ManagementState.step srv text cfg) ManagementState.dispatched
          ⟨r₀, []⟩ es) = [req] ∧
        result.map (ManagementClient.method · req) =
          some (srv.returns t.resolver io disk req) := by
  have hserves := ManagementState.serves_of_run hrun
  -- the request line that the server reads
  obtain ⟨json, hjson, hbytes⟩ : ∃ json, srv.codec.requestJson req = .ok json ∧
      c.source.bytes = utf8 json ++ [lineFeed] := by
    unfold ManagementClient.requestBytes at hsent
    cases hj : srv.codec.requestJson req with
    | error e =>
        rw [hj] at hsent
        cases hsent
    | ok json =>
        rw [hj] at hsent
        exact ⟨json, rfl, (Except.ok.inj hsent).symm⟩
  obtain ⟨hfeed, hblank, hback⟩ := hfaithful.request req json hjson
  intro result
  have hresult : result = ManagementClient.response srv.codec c.reply := by
    simp only [result, ManagementClient.sendRequest, hjson, ManagementClient.Io.to]
  rcases (hserves.ok i c hc).single (requestLines_single hfeed hblank hbytes) hup with
    ⟨hout, hopen⟩ | ⟨resp, rjson, hanswered, hrjson, hout⟩
  · -- nothing has come back
    have hreply : c.reply = ⟨[], .silent⟩ := by
      rw [← hout, ← hopen]
      rfl
    have hwaits : ManagementClient.response srv.codec ⟨[], .silent⟩ = none := rfl
    exact .inl ⟨by rw [hresult, hreply, hwaits], hout⟩
  · right
    have hone : result = some (.ok resp) := by
      rw [hresult, ← ManagementClient.response_of_sent hfaithful hrjson c.reply.ending, ← hout]
      rfl
    rcases hserves.answers i c hc _ (hanswered ▸ List.mem_singleton_self _) with
      ⟨e, he, _⟩ | ⟨req', io, disk, t, t', hreq', htakes, rfl, hstate⟩
    · rw [hback] at he
      cases he
    · rw [hback] at hreq'
      cases hreq'
      refine ⟨io, disk, t, t', htakes, hstate, ?_, ?_⟩
      · rw [hserves.dispatches i, hc]
        simp only [Option.elim_some, parsedLines, ManagementConn.lines, hanswered]
        simp [hback, Except.toOption]
      · rw [hone, Option.map_some, ManagementClient.method_dispatch]

theorem flushCodec_faithful : flushCodec.Faithful where
  request req json h := by
    cases h
    cases req <;> decide
  response resp json h := by
    simp only [flushCodec] at h
    split at h
    · rename_i row hrow
      have hmem := List.mem_of_find?_eq_some hrow
      have hresp : row.1 = resp := by simpa using List.find?_some hrow
      cases h
      subst hresp
      rw [responseTexts, List.mem_cons, List.mem_singleton] at hmem
      rcases hmem with rfl | rfl <;> decide
    · cases h

/-- A client flushes the cache. -/
def flushRun : List ManagementEvent :=
  [.accept ⟨flushLine, .silent⟩, .read 0,
   .dispatch 0 ⟨{ fetch := fun _ => none }, { fetch := fun _ => none }⟩ fun _ => none,
   .send 0 (.ok ())]

/-- The connection when the answer is out. -/
def flushedConn : ManagementConn where
  source := ⟨flushLine, .silent⟩
  input := ⟨[], .silent⟩
  phase := .reading
  output := utf8 "\x7b\"status\":\"ok\"\x7d".toList ++ [lineFeed]
  answered := [(requestText .cacheFlush, .ok)]

theorem flushRun_finishes :
    ∃ s, run (ManagementState.step flushServer sampleText adsConfig) ⟨adsStart, []⟩ flushRun =
      some s ∧ s.conns = [flushedConn] :=
  Option.map_eq_some_iff.mp (by decide +kernel)

/-- The flush. -/
theorem client_gets_dispatch_flush :
    ∃ io disk t t',
      Takes (ManagementState.step flushServer sampleText adsConfig) ⟨adsStart, []⟩ flushRun t
        (.dispatch 0 io disk) t' ∧
      t'.resolver = t.resolver.dispatch .ascii .cacheFlush io disk ∧
      ManagementClient.cacheFlush
        (.ok (flushServer.dispatch t.resolver .cacheFlush io disk)) = .ok () := by
  obtain ⟨s, hs, hconns⟩ := flushRun_finishes
  have hc : s.conns[0]? = some flushedConn := by rw [hconns]; rfl
  rcases client_gets_dispatch flushServer sampleText adsConfig adsStart flushRun s hs
    flushCodec_faithful hc
    (show _ = ManagementClient.requestBytes flushCodec .cacheFlush from rfl).symm
    (fun e h => by cases h) [] with
    ⟨_, hout⟩ | ⟨io, disk, t, t', htakes, hstate, _, _⟩
  · exact absurd hout (by decide)
  · exact ⟨io, disk, t, t', htakes, hstate, rfl⟩

end Dotdns
