import Dotdns.Management
import Dotdns.Server.Origins

/-!
# Management — what the connections are served

The request lines of a stream are its lines that are not blank, up to one
that is not UTF-8. The headline is about any interleaving of any number of
management connections with the resolver: the resolver has taken its own
steps and the requests, each request line that parses once; and each
connection gets one answer for each of its request lines, in order, the
answer being what `dispatch` returned in the state it found.
-/

namespace Dotdns

open Lib

/-- The lines that a connection has to answer. -/
def lineRequests : List (List UInt8) → List Str
  | [] => []
  | line :: lines =>
      match fromUtf8 line with
      | none => []
      | some text => if trim text = [] then lineRequests lines else trim text :: lineRequests lines

/-- The lines of a stream that have to be answered. -/
def requestLines (s : LineStream) : List Str := lineRequests (byteLines s.bytes)

theorem requestLines_readLine {s s' : LineStream} {text : Str}
    (h : s.readLine = some (.line text, s')) :
    requestLines s =
      if trim text = [] then requestLines s' else trim text :: requestLines s' := by
  obtain ⟨line, hlines, htext, _⟩ := LineStream.byteLines_of_readLine h
  rw [requestLines, hlines, lineRequests, htext]
  rfl

namespace ManagementState

section
variable {srv : ManagementServer} {text : LabelText} {cfg : ResolveConfig}
  {s s' : ManagementState} {e : ManagementEvent}

/-- The steps as a relation, guards included. -/
inductive Step (srv : ManagementServer) (text : LabelText) (cfg : ResolveConfig)
    (s : ManagementState) : ManagementEvent → ManagementState → Prop
  | resolver {e : ResolverEvent} {resolver : ResolverState} : e.isManage = false →
      s.resolver.step srv.U text cfg e = some resolver →
      Step srv text cfg s (.resolver e) { s with resolver }
  | accept (source : LineStream) :
      Step srv text cfg s (.accept source) { s with conns := s.conns ++ [.accept source] }
  | read {i : Nat} {c c' : ManagementConn} : s.conns[i]? = some c → c.phase = .reading →
      c.read srv.codec = some c' → Step srv text cfg s (.read i) (s.setConn i c')
  | dispatch {i : Nat} {c : ManagementConn} {line : Str} {req : ManagementRequest}
      (io : ReloadIo) (disk : Disk) : s.conns[i]? = some c → c.phase = .dispatching line req →
      Step srv text cfg s (.dispatch i io disk)
        { resolver := s.resolver.dispatch srv.U req io disk
          conns := s.conns.set i (c.answer line (srv.dispatch s.resolver req io disk)) }
  | send {i : Nat} {c : ManagementConn} {resp : ManagementResponse}
      (outcome : Except (Nat × Str) Unit) : s.conns[i]? = some c → c.phase = .sending resp →
      Step srv text cfg s (.send i outcome) (s.setConn i (c.send srv.codec resp outcome))

theorem step_cases (hs : s.step srv text cfg e = some s') : Step srv text cfg s e s' := by
  cases e with
  | resolver e =>
      simp only [step] at hs
      split at hs
      · cases hs
      · rename_i hmanage
        obtain ⟨resolver, hr, rfl⟩ := Option.map_eq_some_iff.mp hs
        exact .resolver (Bool.not_eq_true _ ▸ hmanage) hr
  | accept source =>
      cases hs
      exact .accept source
  | read i =>
      simp only [step] at hs
      split at hs
      · rename_i c hc
        split at hs
        · rename_i hphase
          obtain ⟨c', hread, rfl⟩ := Option.map_eq_some_iff.mp hs
          exact .read hc hphase hread
        · cases hs
      · cases hs
  | dispatch i io disk =>
      simp only [step] at hs
      split at hs
      · rename_i c hc
        split at hs
        · rename_i hphase
          cases hs
          exact .dispatch io disk hc hphase
        · cases hs
      · cases hs
  | send i outcome =>
      simp only [step] at hs
      split at hs
      · rename_i c hc
        split at hs
        · rename_i hphase
          cases hs
          exact .send outcome hc hphase
        · cases hs
      · cases hs

end

end ManagementState

/-! ## One connection -/

section
variable {codec : ManagementCodec} {c c' : ManagementConn}

/-- `bytes` are the lines of these answers. -/
def Sent (codec : ManagementCodec) (answered : List (Str × ManagementResponse))
    (bytes : List UInt8) : Prop :=
  ∃ jsons, List.Forall₂ (fun a json => codec.responseJson a.2 = .ok json) answered jsons ∧
    bytes = jsons.flatMap fun json => utf8 json ++ [lineFeed]

theorem sent_nil : Sent codec [] [] := ⟨[], .nil, rfl⟩

theorem Sent.concat {answered : List (Str × ManagementResponse)} {bytes : List UInt8}
    (h : Sent codec answered bytes) {line json : Str} {resp : ManagementResponse}
    (hjson : codec.responseJson resp = .ok json) :
    Sent codec (answered ++ [(line, resp)]) (bytes ++ (utf8 json ++ [lineFeed])) := by
  obtain ⟨jsons, hall, rfl⟩ := h
  refine ⟨jsons ++ [json], List.rel_append hall (.cons hjson .nil), ?_⟩
  rw [List.flatMap_append, List.flatMap_singleton]

namespace ManagementConn

/-- The lines that have been answered. -/
def lines (c : ManagementConn) : List Str := c.answered.map Prod.fst

/-- Of the answers before the last, all is out; of the last, a part. -/
def CutOff (codec : ManagementCodec) (c : ManagementConn) : Prop :=
  ∃ done line resp whole part, c.answered = done ++ [(line, resp)] ∧ Sent codec done whole ∧
    c.output = whole ++ part ∧
    ∀ json, codec.responseJson resp = .ok json → part <+: utf8 json ++ [lineFeed]

/-- What has been answered and what is out, by where the task stands. -/
def Ok (codec : ManagementCodec) (c : ManagementConn) : Prop :=
  match c.phase with
  | .reading =>
      Sent codec c.answered c.output ∧
        c.lines ++ requestLines c.input = requestLines c.source
  | .dispatching line req =>
      Sent codec c.answered c.output ∧
        c.lines ++ line :: requestLines c.input = requestLines c.source ∧
        codec.requestOf line = .ok req
  | .sending resp =>
      c.lines ++ requestLines c.input = requestLines c.source ∧
        ∃ done line, c.answered = done ++ [(line, resp)] ∧ Sent codec done c.output
  | .returned (.ok ()) => Sent codec c.answered c.output ∧ c.lines = requestLines c.source
  | .returned (.error _) =>
      c.lines <+: requestLines c.source ∧ (Sent codec c.answered c.output ∨ c.CutOff codec)

/-- What a read answers by itself is a line that is no request. -/
theorem answered_read (h : c.read codec = some c') :
    c'.answered = c.answered ∨
      ∃ line e, codec.requestOf line = .error e ∧
        c'.answered = c.answered ++ [(line, ManagementServer.invalidRequest e)] := by
  unfold read at h
  split at h
  · rename_i text input _
    cases h
    unfold received
    dsimp only
    split
    · exact .inl rfl
    · split
      · rename_i e he
        exact .inr ⟨trim text, e, he, rfl⟩
      · exact .inl rfl
  · cases h
    exact .inl rfl
  · cases h
    exact .inl rfl
  · cases h

theorem ok_accept (source : LineStream) : (ManagementConn.accept source).Ok codec :=
  ⟨sent_nil, rfl⟩

theorem lines_concat (c : ManagementConn) (line : Str) (resp : ManagementResponse)
    {rest all : List Str} (h : c.lines ++ line :: rest = all) :
    (c.answered ++ [(line, resp)]).map Prod.fst ++ rest = all := by
  rw [← h, List.map_append, List.append_assoc]
  rfl

/-- A line that was read is skipped, answered, or goes on to `dispatch`. -/
theorem Ok.received (hsent : Sent codec c.answered c.output) (hphase : c.phase = .reading)
    {text : Str} (hlines : c.lines ++
      (if trim text = [] then requestLines c.input else trim text :: requestLines c.input) =
        requestLines c.source) :
    (c.received codec text).Ok codec := by
  unfold ManagementConn.received
  dsimp only
  split
  · rename_i hblank
    rw [if_pos hblank] at hlines
    rw [Ok, hphase]
    exact ⟨hsent, hlines⟩
  · rename_i hblank
    rw [if_neg hblank] at hlines
    split
    · exact ⟨c.lines_concat _ _ hlines, c.answered, trim text, rfl, hsent⟩
    · rename_i req hreq
      exact ⟨hsent, hlines, hreq⟩

theorem Ok.read (h : c.Ok codec) (hphase : c.phase = .reading) (hread : c.read codec = some c') :
    c'.Ok codec := by
  rw [Ok, hphase] at h
  obtain ⟨hsent, hlines⟩ := h
  unfold ManagementConn.read at hread
  split at hread
  · rename_i text input hline
    cases hread
    rw [requestLines_readLine hline] at hlines
    exact Ok.received (c := { c with input }) hsent hphase hlines
  · rename_i input hline
    cases hread
    have hnone : requestLines c.input = [] := by
      rw [requestLines, (LineStream.bytes_of_eof hline).1]
      rfl
    rw [hnone, List.append_nil] at hlines
    exact ⟨hsent, hlines⟩
  · cases hread
    exact ⟨⟨_, hlines⟩, .inl hsent⟩
  · cases hread

theorem Ok.answer (h : c.Ok codec) {line : Str} {req : ManagementRequest}
    (hphase : c.phase = .dispatching line req) (resp : ManagementResponse) :
    (c.answer line resp).Ok codec := by
  rw [Ok, hphase] at h
  obtain ⟨hsent, hlines, _⟩ := h
  exact ⟨c.lines_concat line resp hlines, c.answered, line, rfl, hsent⟩

theorem Ok.send (h : c.Ok codec) {resp : ManagementResponse} (hphase : c.phase = .sending resp)
    (outcome : Except (Nat × Str) Unit) : (c.send codec resp outcome).Ok codec := by
  rw [Ok, hphase] at h
  obtain ⟨hlines, done, line, hanswered, hsent⟩ := h
  unfold ManagementConn.send
  cases hjson : codec.responseJson resp with
  | error e =>
      refine ⟨⟨_, hlines⟩, .inr ⟨done, line, resp, c.output, [], hanswered, hsent,
        (List.append_nil _).symm, ?_⟩⟩
      intro json hj
      exact List.nil_prefix
  | ok json =>
      cases outcome with
      | ok u =>
          refine ⟨?_, hlines⟩
          dsimp only
          rw [hanswered]
          exact hsent.concat hjson
      | error cut =>
          refine ⟨⟨_, hlines⟩, .inr ⟨done, line, resp, c.output, _, hanswered, hsent, rfl, ?_⟩⟩
          intro json' hj
          rw [hjson] at hj
          cases hj
          exact List.take_prefix _ _

end ManagementConn

end

/-! ## Every interleaving -/

/-- The requests among these lines. -/
def parsedLines (codec : ManagementCodec) (c : ManagementConn) : List ManagementRequest :=
  c.lines.filterMap fun line => (codec.requestOf line).toOption

theorem parsedLines_of_answered {codec : ManagementCodec} {c c' : ManagementConn}
    (h : c'.answered = c.answered) : parsedLines codec c' = parsedLines codec c := by
  rw [parsedLines, ManagementConn.lines, h]
  rfl

theorem parsedLines_concat {codec : ManagementCodec} {c c' : ManagementConn} {line : Str}
    {resp : ManagementResponse} (h : c'.answered = c.answered ++ [(line, resp)]) :
    parsedLines codec c' = parsedLines codec c ++ (codec.requestOf line).toOption.toList := by
  have hline : [line].filterMap (fun line => (codec.requestOf line).toOption) =
      (codec.requestOf line).toOption.toList := by
    cases hreq : codec.requestOf line <;> simp [hreq, Except.toOption]
  rw [parsedLines, ManagementConn.lines, h, List.map_append, List.filterMap_append,
    show [(line, resp)].map Prod.fst = [line] from rfl, hline]
  rfl

/-- The requests among these that came in on connection `i`. -/
def requestsOf (i : Nat) (dispatches : List (Nat × ManagementRequest)) : List ManagementRequest :=
  dispatches.filterMap fun p => if p.1 = i then some p.2 else none

namespace ManagementState

section
variable (srv : ManagementServer) (text : LabelText) (cfg : ResolveConfig) (r₀ : ResolverState)

/-- How the run `es` came by an answer on connection `i`. -/
def Answers (es : List ManagementEvent) (i : Nat) (a : Str × ManagementResponse) : Prop :=
  (∃ e, srv.codec.requestOf a.1 = .error e ∧ a.2 = ManagementServer.invalidRequest e) ∨
    ∃ req io disk t t', srv.codec.requestOf a.1 = .ok req ∧
      Takes (step srv text cfg) ⟨r₀, []⟩ es t (.dispatch i io disk) t' ∧
      a.2 = srv.dispatch t.resolver req io disk ∧
      t'.resolver = t.resolver.dispatch srv.U req io disk

/-- What the run `es` has done to its connections. -/
structure Serves (es : List ManagementEvent) (s : ManagementState) : Prop where
  ok : ∀ (i : Nat) (c : ManagementConn), s.conns[i]? = some c → c.Ok srv.codec
  answers : ∀ (i : Nat) (c : ManagementConn), s.conns[i]? = some c →
    ∀ a ∈ c.answered, Answers srv text cfg r₀ es i a
  dispatches : ∀ i, requestsOf i (trace (step srv text cfg) dispatched ⟨r₀, []⟩ es) =
    (s.conns[i]?).elim [] (parsedLines srv.codec)

end

section
variable {srv : ManagementServer} {text : LabelText} {cfg : ResolveConfig} {r₀ : ResolverState}
  {es : List ManagementEvent} {e : ManagementEvent} {s s' : ManagementState} {i : Nat}

theorem Answers.mono {es' : List ManagementEvent} {a : Str × ManagementResponse}
    (h : Answers srv text cfg r₀ es i a) (hes : es <+: es') : Answers srv text cfg r₀ es' i a := by
  rcases h with h | ⟨req, io, disk, t, t', hreq, htakes, hresp, hstate⟩
  · exact .inl h
  · exact .inr ⟨req, io, disk, t, t', hreq, htakes.mono hes, hresp, hstate⟩

theorem requestsOf_append (l l' : List (Nat × ManagementRequest)) :
    requestsOf i (l ++ l') = requestsOf i l ++ requestsOf i l' := List.filterMap_append

/-- A step that dispatches nothing and leaves the connections as they are. -/
theorem Serves.still (h : Serves srv text cfg r₀ es s)
    (hrun : run (step srv text cfg) ⟨r₀, []⟩ es = some s) (hconns : s'.conns = s.conns)
    (hnone : s.dispatched e = none) : Serves srv text cfg r₀ (es ++ [e]) s' where
  ok := hconns ▸ h.ok
  answers i c hc a ha :=
    (h.answers i c (hconns ▸ hc) a ha).mono (List.prefix_append es [e])
  dispatches i := by
    rw [trace_concat hrun, hnone, Option.toList_none, List.append_nil, h.dispatches i, hconns]

/-- A step of the task of connection `i`. -/
theorem Serves.move (h : Serves srv text cfg r₀ es s)
    (hrun : run (step srv text cfg) ⟨r₀, []⟩ es = some s) {c c' : ManagementConn}
    (hc : s.conns[i]? = some c) (hconns : s'.conns = s.conns.set i c') (hok : c'.Ok srv.codec)
    (hanswers : ∀ a ∈ c'.answered, Answers srv text cfg r₀ (es ++ [e]) i a)
    (reqs : List ManagementRequest) (hdispatched : (s.dispatched e).toList = reqs.map (i, ·))
    (hparsed : parsedLines srv.codec c' = parsedLines srv.codec c ++ reqs) :
    Serves srv text cfg r₀ (es ++ [e]) s' where
  ok j c₁ hc₁ := by
    rw [hconns] at hc₁
    rcases getElem?_set_eq_some.mp hc₁ with ⟨_, hc₁⟩ | ⟨_, _, rfl⟩
    · exact h.ok j c₁ hc₁
    · exact hok
  answers j c₁ hc₁ a ha := by
    rw [hconns] at hc₁
    rcases getElem?_set_eq_some.mp hc₁ with ⟨_, hc₁⟩ | ⟨rfl, _, rfl⟩
    · exact (h.answers j c₁ hc₁ a ha).mono (List.prefix_append es [e])
    · exact hanswers a ha
  dispatches j := by
    rw [trace_concat hrun, hdispatched, requestsOf_append, h.dispatches j, hconns]
    by_cases hj : j = i
    · subst hj
      have hreqs : requestsOf j (reqs.map (j, ·)) = reqs := by
        simp [requestsOf, List.filterMap_map]
      rw [hc, getElem?_set_of_some hc, hreqs]
      exact hparsed.symm
    · have hreqs : requestsOf j (reqs.map (i, ·)) = [] := by
        simp [requestsOf, List.filterMap_map, Ne.symm hj]
      rw [hreqs, List.append_nil, List.getElem?_set_ne (Ne.symm hj)]

theorem Serves.step (h : Serves srv text cfg r₀ es s)
    (hrun : run (step srv text cfg) ⟨r₀, []⟩ es = some s)
    (hs : s.step srv text cfg e = some s') : Serves srv text cfg r₀ (es ++ [e]) s' := by
  have hmono : ∀ {i : Nat} {c : ManagementConn}, s.conns[i]? = some c → ∀ a ∈ c.answered,
      Answers srv text cfg r₀ (es ++ [e]) i a := fun hc a ha =>
    (h.answers _ _ hc a ha).mono (List.prefix_append es [e])
  cases step_cases hs with
  | resolver hmanage hr => exact h.still hrun rfl rfl
  | accept source =>
      exact {
        ok := fun i c hc => by
          rcases getElem?_concat_eq_some.mp hc with hc | ⟨_, rfl⟩
          · exact h.ok i c hc
          · exact ManagementConn.ok_accept source
        answers := fun i c hc a ha => by
          rcases getElem?_concat_eq_some.mp hc with hc | ⟨_, rfl⟩
          · exact hmono hc a ha
          · cases ha
        dispatches := fun i => by
          rw [trace_concat hrun, show s.dispatched (.accept source) = none from rfl,
            Option.toList_none, List.append_nil, h.dispatches i]
          dsimp only
          -- a connection that was just accepted has answered nothing
          rcases Nat.lt_trichotomy i s.conns.length with hlt | rfl | hgt
          · rw [List.getElem?_append_left hlt]
          · rw [List.getElem?_concat_length, List.getElem?_eq_none (Nat.le_refl _)]
            rfl
          · rw [List.getElem?_eq_none (Nat.le_of_lt hgt), List.getElem?_eq_none (by simp; omega)] }
  | read hc hphase hread =>
      rcases ManagementConn.answered_read hread with hsame | ⟨line, err, hline, hconcat⟩
      · refine h.move hrun hc rfl ((h.ok _ _ hc).read hphase hread) (hsame ▸ hmono hc) []
          rfl ?_
        rw [parsedLines_of_answered hsame, List.append_nil]
      · refine h.move hrun hc rfl ((h.ok _ _ hc).read hphase hread) ?_ [] rfl ?_
        · intro a ha
          rw [hconcat] at ha
          rcases List.mem_append.mp ha with ha | ha
          · exact hmono hc a ha
          · cases List.mem_singleton.mp ha
            exact .inl ⟨err, hline, rfl⟩
        · rw [parsedLines_concat hconcat, hline]
          rfl
  | @dispatch i c line req io disk hc hphase =>
      have hok := h.ok _ _ hc
      have hline : srv.codec.requestOf line = .ok req := by
        rw [ManagementConn.Ok, hphase] at hok
        exact hok.2.2
      have hdispatched : s.dispatched (.dispatch i io disk) = some (i, req) := by
        simp only [dispatched, hc, hphase]
      refine h.move hrun hc rfl (hok.answer hphase _) ?_ [req] ?_ ?_
      · intro a ha
        rcases List.mem_append.mp ha with ha | ha
        · exact hmono hc a ha
        · cases List.mem_singleton.mp ha
          exact .inr ⟨req, io, disk, s, _, hline, Takes.last hrun hs, rfl, rfl⟩
      · rw [hdispatched]
        rfl
      · rw [parsedLines_concat (c := c) rfl, hline]
        rfl
  | @send i c resp outcome hc hphase =>
      have hsame : (c.send srv.codec resp outcome).answered = c.answered := by
        unfold ManagementConn.send
        cases srv.codec.responseJson resp with
        | error err => rfl
        | ok json => cases outcome <;> rfl
      refine h.move hrun hc rfl ((h.ok _ _ hc).send hphase outcome) (hsame ▸ hmono hc) []
        rfl ?_
      rw [parsedLines_of_answered hsame, List.append_nil]

theorem serves_of_run (hrun : run (step srv text cfg) ⟨r₀, []⟩ es = some s) :
    Serves srv text cfg r₀ es s := by
  refine run_induction ?_ (fun ls t l t' ht hserves hstep => hserves.step ht hstep) hrun
  exact
    { ok := fun i c hc => by cases hc
      answers := fun i c hc => by cases hc
      dispatches := fun i => rfl }

/-- Seen from the resolver, a dispatch is a management request, and the rest
of what the tasks do is nothing. -/
theorem resolver_run (hrun : run (step srv text cfg) ⟨r₀, []⟩ es = some s) :
    run (ResolverState.step srv.U text cfg) r₀
      (trace (step srv text cfg) resolverEvent ⟨r₀, []⟩ es) = some s.resolver := by
  refine run_trace resolver (fun t e t' ht => ?_) hrun
  cases step_cases ht with
  | resolver hmanage hr => exact hr
  | accept source => rfl
  | read hc hphase hread => rfl
  | dispatch io disk hc hphase =>
      simp only [resolverEvent, dispatched, hc, hphase, Option.map_some]
      rfl
  | send outcome hc hphase => rfl

end

end ManagementState

/-- **What the management connections are served.** In every interleaving of
any number of connections, whatever bytes come in on them, with the steps of
the resolver: the resolver has made a run of its own steps and the requests
dispatched; and each connection has answered the first of its request lines,
in order, each line that is a request having been dispatched exactly once and
answered with what `dispatch` returned there, and any other line with an
error. -/
theorem management_serves (srv : ManagementServer) (text : LabelText) (cfg : ResolveConfig)
    (r₀ : ResolverState) (es : List ManagementEvent) (s : ManagementState)
    (hrun : run (ManagementState.step srv text cfg) ⟨r₀, []⟩ es = some s) :
    run (ResolverState.step srv.U text cfg) r₀
      (trace (ManagementState.step srv text cfg) ManagementState.resolverEvent ⟨r₀, []⟩ es) =
        some s.resolver ∧
    ∀ (i : Nat) (c : ManagementConn), s.conns[i]? = some c →
      c.Ok srv.codec ∧
      (∀ a ∈ c.answered, ManagementState.Answers srv text cfg r₀ es i a) ∧
      requestsOf i
        (trace (ManagementState.step srv text cfg) ManagementState.dispatched ⟨r₀, []⟩ es) =
          parsedLines srv.codec c := by
  have hserves := ManagementState.serves_of_run hrun
  refine ⟨ManagementState.resolver_run hrun, fun i c hc => ⟨hserves.ok i c hc,
    hserves.answers i c hc, ?_⟩⟩
  rw [hserves.dispatches i, hc]
  rfl

/-! Two clients flush the cache, and one of them is misunderstood first. -/

/-- The `cmd` of a request. -/
def commandName : ManagementRequest → String
  | .status => "status"
  | .cacheFlush => "cache_flush"
  | .blocklistReload => "blocklist_reload"
  | .tracking => "tracking"
  | .sources => "sources"
  | .sourcestats => "sourcestats"
  | .activity => "activity"
  | .clients => "clients"

def commands : List ManagementRequest :=
  [.status, .cacheFlush, .blocklistReload, .tracking, .sources, .sourcestats, .activity, .clients]

/-- A request as `serde_json` writes it. -/
def requestText (req : ManagementRequest) : Str :=
  "\x7b\"cmd\":\"".toList ++ (commandName req).toList ++ "\"\x7d".toList

/-- What the parser says of a line that is no request. -/
def unknownVariant : Str := "unknown variant".toList

/-- The responses of the two clients. -/
def responseTexts : List (ManagementResponse × Str) :=
  [(.ok, "\x7b\"status\":\"ok\"\x7d".toList),
   (ManagementServer.invalidRequest unknownVariant,
     ("\x7b\"status\":\"error\",\"message\":\"invalid request: ".toList ++ unknownVariant) ++
       "\"\x7d".toList)]

/-- All requests, and these responses. -/
def flushCodec : ManagementCodec where
  requestJson req := .ok (requestText req)
  requestOf line :=
    match commands.find? fun req => requestText req = line with
    | some req => .ok req
    | none => .error unknownVariant
  responseJson resp :=
    match responseTexts.find? fun row => row.1 = resp with
    | some row => .ok row.2
    | none => .error "not in the table".toList
  responseOf line :=
    match responseTexts.find? fun row => row.2 = line with
    | some row => .ok row.1
    | none => .error "not in the table".toList
  reloadError _ := []

def flushServer : ManagementServer := ⟨.ascii, flushCodec, 0⟩

/-- The line that asks for a flush. -/
def flushLine : List UInt8 := utf8 (requestText .cacheFlush) ++ [lineFeed]

/-- Neither of two clients waits for the other; the second one's first line
is no request. -/
def twoFlushesRun : List ManagementEvent :=
  [.accept ⟨flushLine, .silent⟩, .accept ⟨utf8 "flush!".toList ++ [lineFeed] ++ flushLine, .silent⟩,
   .read 1, .read 0, .send 1 (.ok ()), .read 1,
   .dispatch 0 ⟨{ fetch := fun _ => none }, { fetch := fun _ => none }⟩ fun _ => none,
   .dispatch 1 ⟨{ fetch := fun _ => none }, { fetch := fun _ => none }⟩ fun _ => none,
   .send 1 (.ok ()), .send 0 (.ok ())]

/-- One answer to the first client and two to the second, the first of them
an error. -/
theorem management_serves_two_clients :
    ∃ s c₀ c₁,
      run (ManagementState.step flushServer sampleText adsConfig) ⟨adsStart, []⟩ twoFlushesRun =
        some s ∧
      s.conns = [c₀, c₁] ∧ c₀.Ok flushCodec ∧ c₁.Ok flushCodec ∧
      c₀.answered = [(requestText .cacheFlush, .ok)] ∧
      c₁.answered = [("flush!".toList, ManagementServer.invalidRequest unknownVariant),
        (requestText .cacheFlush, .ok)] ∧
      requestsOf 0 (trace (ManagementState.step flushServer sampleText adsConfig)
        ManagementState.dispatched ⟨adsStart, []⟩ twoFlushesRun) = [.cacheFlush] ∧
      requestsOf 1 (trace (ManagementState.step flushServer sampleText adsConfig)
        ManagementState.dispatched ⟨adsStart, []⟩ twoFlushesRun) = [.cacheFlush] := by
  have hrun : (run (ManagementState.step flushServer sampleText adsConfig) ⟨adsStart, []⟩
      twoFlushesRun).map (fun s => s.conns.map ManagementConn.answered) =
        some [[(requestText .cacheFlush, .ok)],
          [("flush!".toList, ManagementServer.invalidRequest unknownVariant),
            (requestText .cacheFlush, .ok)]] := by
    decide +kernel
  obtain ⟨s, hs, hanswered⟩ := Option.map_eq_some_iff.mp hrun
  obtain ⟨c₀, rest, hconns, h₀, hrest⟩ := List.map_eq_cons_iff.mp hanswered
  obtain ⟨c₁, rest, rfl, h₁, hnil⟩ := List.map_eq_cons_iff.mp hrest
  obtain rfl := List.map_eq_nil_iff.mp hnil
  have hserves :=
    (management_serves flushServer sampleText adsConfig adsStart twoFlushesRun s hs).2
  obtain ⟨hok₀, _, hdispatched₀⟩ := hserves 0 c₀ (by rw [hconns]; rfl)
  obtain ⟨hok₁, _, hdispatched₁⟩ := hserves 1 c₁ (by rw [hconns]; rfl)
  rw [parsedLines, ManagementConn.lines, h₀] at hdispatched₀
  rw [parsedLines, ManagementConn.lines, h₁] at hdispatched₁
  exact ⟨s, c₀, c₁, hs, hconns, hok₀, hok₁, h₀, h₁, hdispatched₀.trans (by decide +kernel),
    hdispatched₁.trans (by decide +kernel)⟩

end Dotdns
