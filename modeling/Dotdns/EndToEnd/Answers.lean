import Dotdns.EndToEnd

/-!
# The process — what its clients are told

Every byte that a client is sent goes back to what an upstream replied, to
the blocklist, or to an error of its own query: the headline follows it
from the connection through the resolver and the coalescer of its server to
the attempt that got the reply.
-/

namespace Dotdns

open Lib ResolverState

/-! ## What an origin says -/

/-- One query, or two under one cache key. -/
def SameKey (u v : Message) : Prop := u = v ∨ ∃ k, HasKey u k ∧ HasKey v k

/-- What the origin of a call's answer says about the answer. -/
structure Call.OriginOk (cfg : ResolveConfig) (c : Call) : Prop where
  blocked : ∀ msg q, c.phase = .done msg (some (.blocked q)) →
    IsBlockAnswer cfg.blocklist c.query msg
  upstream : ∀ msg u, c.phase = .done msg (some (.upstream u)) →
    SameKey u (c.upstreamQuery cfg)

section
variable {U : UnicodeCase} {text : LabelText} {cfg : ResolveConfig}
variable {s s' : ResolverState} {e : ResolverEvent}

theorem Call.OriginOk.of_no_origin {c : Call}
    (h : ∀ msg o, c.phase ≠ .done msg (some o)) : c.OriginOk cfg where
  blocked msg _ hp := absurd hp (h msg _)
  upstream msg _ hp := absurd hp (h msg _)

theorem originOk_newCall (b : ReloadableBlocklist) (query : Message) (clientIp : Option IpAddr) :
    (newCall U text b query clientIp).OriginOk cfg := by
  refine .of_no_origin fun msg o => ?_
  unfold newCall
  cases query.queries.head? with
  | none => simp
  | some q => simp

theorem originOk_step (hcache : CacheOk cfg s)
    (h : ∀ (j : Nat) c, s.calls[j]? = some c → c.OriginOk cfg)
    (hs : s.step U text cfg e = some s') :
    ∀ (j : Nat) c, s'.calls[j]? = some c → c.OriginOk cfg := by
  refine ResolverState.forall_calls_step h hs (originOk_newCall s.blocklist) ?_
  intro j c phase _ _ hmove
  cases hmove with
  | hit _ _ hget =>
      obtain ⟨en, k, ttl, _, hen, hk, ho, rfl⟩ := hit_of_get hget
      have hok := hcache k en hen
      constructor
      · intro msg q hp
        injection hp with hmsg ho'
        obtain rfl := Option.some.inj ho'
        rw [← hmsg]
        exact isBlockAnswer_of_hit hok ho hk ttl
      · intro msg u hp
        injection hp with _ ho'
        obtain rfl := Option.some.inj ho'
        unfold EntryOk at hok
        rw [ho] at hok
        exact .inr ⟨k, hok, hk⟩
  | miss _ _ _ =>
      refine .of_no_origin fun msg o => ?_
      show (if c.isBlocked then CallPhase.store else .waiting) ≠ _
      split
      · simp
      · simp
  | stored _ _ =>
      constructor
      · intro msg q hp
        cases hp
        exact SameAnswer.refl _
      · intro msg u hp
        cases hp
  | inserted _ _ =>
      constructor
      · intro msg q hp
        cases hp
      · intro msg u hp
        cases hp
        exact .inl rfl
  | replied _ _ => exact .of_no_origin fun msg o => by simp
  | failed _ _ => exact .of_no_origin fun msg o => by simp
  | cancelled _ _ => exact .of_no_origin fun msg o => by simp

end

/-- What is behind the answer to call `i`, `n` being the upstreams of the pool
and `made` the attempts. -/
inductive Explained (U : UnicodeCase) (text : LabelText) (cfg : ResolveConfig) (toBytes : ToBytes)
    (start : ServeState) (es : List ServeEvent) (n : Nat) (s : ServeState) (i : Nat) (c : Call)
    (answer : Message) : Prop
  | upstream (u reply : Message) : SameKey u (c.upstreamQuery cfg) →
      ServeState.ObtainedFor U text cfg toBytes start es u reply → FromReply reply answer →
      Explained U text cfg toBytes start es n s i c answer
  | blocked : IsBlockAnswer cfg.blocklist c.query answer →
      Explained U text cfg toBytes start es n s i c answer
  | formErr : c.query.queries = [] → answer = makeErrorResponse c.query .formErr →
      Explained U text cfg toBytes start es n s i c answer
  | servFail : answer = makeErrorResponse c.query .servFail →
      s.Unanswered toBytes n
        (trace (ServeState.step U text cfg toBytes) ServeState.attempted start es) i
        (c.upstreamQuery cfg) →
      Explained U text cfg toBytes start es n s i c answer

/-! ## Two servers -/

namespace EndToEndState

/-- The coalescer of a server has only seen the calls that came in there. -/
def Apart (s : EndToEndState) : Prop :=
  ∀ l, ∀ i ∈ s.owners l, s.listenerOf i = some l

section
variable {U : UnicodeCase} {text : LabelText} {cfg : ResolveConfig} {toBytes : ToBytes}
  {fromBytes : FromBytes} {s s' : EndToEndState} {e : EndToEndEvent}

theorem listenerOf_kept (hs : s.step U text cfg toBytes fromBytes e = some s') {i : Nat}
    {l : Listener} (h : s.listenerOf i = some l) : s'.listenerOf i = some l := by
  rcases stepSeen_eq_some.mp (clients_step hs) with ⟨ce, _, hclients⟩ | ⟨_, hclients⟩
  · obtain ⟨task, howner, h⟩ := Option.bind_eq_some_iff.mp h
    obtain ⟨t, ht, rfl⟩ := Option.map_eq_some_iff.mp h
    obtain ⟨t', ht', hl⟩ := ClientsState.listener_kept hclients ht
    rw [listenerOf, ClientsState.owner_kept hclients howner, Option.bind_some, ht',
      Option.map_some, hl]
  · rw [listenerOf, hclients]
    exact h

theorem owners_cases (hs : s.step U text cfg toBytes fromBytes e = some s') :
    s'.owners = s.owners ∨ ∃ l i, s.listenerOf i = some l ∧
      s'.owners = Function.update s.owners l (s.owners l ++ [i]) := by
  cases step_cases hs with
  | client _ _ _ => exact .inl rfl
  | dropped _ _ _ _ => exact .inl rfl
  | serve hadmits ht =>
      cases ServeState.step_cases ht with
      | missed _ _ _ => exact .inr ⟨_, _, beq_iff_eq.mp hadmits, rfl⟩
      | _ => exact .inl rfl

theorem Apart.step (h : s.Apart) (hs : s.step U text cfg toBytes fromBytes e = some s') :
    s'.Apart := by
  intro l i hi
  refine listenerOf_kept hs ?_
  rcases owners_cases hs with howners | ⟨l₁, i₁, hl₁, howners⟩
  · rw [howners] at hi
    exact h l i hi
  · rw [howners] at hi
    by_cases hl : l = l₁
    · subst hl
      rw [Function.update_self] at hi
      rcases List.mem_append.mp hi with hi | hi
      · exact h l i hi
      · rw [List.mem_singleton.mp hi]
        exact hl₁
    · rw [Function.update_of_ne hl] at hi
      exact h l i hi

end

end EndToEndState

theorem originOk_of_run {U : UnicodeCase} {text : LabelText} {cfg : ResolveConfig} {now : Nat}
    {m : Metrics} {b : ReloadableBlocklist} {obs : Option ObservabilityRegistry}
    {es : List ResolverEvent} {r : ResolverState}
    (hrun : run (ResolverState.step U text cfg) (.init cfg now m b obs) es = some r) {i : Nat}
    {c : Call} (hc : r.calls[i]? = some c) : c.OriginOk cfg := by
  have hinv : CacheOk cfg r ∧ ∀ (j : Nat) c, r.calls[j]? = some c → c.OriginOk cfg := by
    refine (Passes.finish hrun).invariant_of_step (I := fun r => CacheOk cfg r ∧
      ∀ (j : Nat) c, r.calls[j]? = some c → c.OriginOk cfg) ⟨?_, ?_⟩ ?_
    · intro k en hk
      cases hk
    · intro j c hj
      cases hj
    · rintro r e r' ⟨hcache, hcalls⟩ hs
      exact ⟨cacheOk_step hcache hs, originOk_step hcache hcalls hs⟩
  exact hinv.2 i c hc

/-- What a run behind the resolver says about its answers. -/
theorem explained_of_run {U : UnicodeCase} {text : LabelText} {cfg : ResolveConfig}
    {toBytes : ToBytes} {now : Nat} {m : Metrics} {b : ReloadableBlocklist}
    {obs : Option ObservabilityRegistry} {names : List Str} {policy : UpstreamSelectionPolicy}
    {es : List ServeEvent} {s : ServeState}
    (hrun : run (ServeState.step U text cfg toBytes) (.init cfg now m b obs names policy) es =
      some s) {i : Nat} {c : Call} {answer : Message} {o : Option Origin}
    (hc : s.resolver.calls[i]? = some c) (hdone : c.phase = .done answer o) :
    answer.id = c.query.id ∧
      Explained U text cfg toBytes (.init cfg now m b obs names policy) es names.length s i c
        answer := by
  have hresolver : run (ResolverState.step U text cfg) (.init cfg now m b obs)
      (trace (ServeState.step U text cfg toBytes) ServeState.resolverEvent
        (.init cfg now m b obs names policy) es) = some s.resolver :=
    run_trace ServeState.resolver (fun _ _ _ => ServeState.resolver_step) hrun
  refine ⟨ResolverState.answer_id_of_run hresolver hc hdone, ?_⟩
  have horigin := originOk_of_run hresolver hc
  cases o with
  | none =>
      have hlinked := ServeState.linked_of_passes (Passes.finish hrun)
      have hfail := ServeState.failures_of_run hrun
      rcases hfail.errors i c answer hc hdone with ⟨hnone, hanswer⟩ | ⟨hanswer, hcause⟩
      · exact .formErr hnone hanswer
      · exact .servFail hanswer (ServeState.unanswered_of_returnedError hlinked hfail
          (ServeState.triedOk_of_run hrun) hc hcause)
  | some o =>
      cases o with
      | blocked q => exact .blocked (horigin.blocked answer q hdone)
      | upstream u =>
          obtain ⟨reply, hobtained, hfrom⟩ :=
            (ServeState.provenance_of_run hrun).replies.returned i c answer u hc hdone
          exact .upstream u reply (horigin.upstream answer u hdone) hobtained hfrom

/-- **Every answer has its reason.** In every run of the process, whatever the
interleaving of the connections, the resolver, the coalescers and the pool:
what a connection has been sent is the answers to its own queries, in
order; such an answer has the ID of its query, and is what an upstream
replied to a query of the same wire form or cache key, or what the blocklist
says, or an error whose cause is in the query or in what the upstreams did;
and no coalescer has joined queries of two servers. What is behind the
resolver, and what is before it, takes steps of its own only. -/
theorem client_answers_explained (U : UnicodeCase) (text : LabelText) (cfg : ResolveConfig)
    (toBytes : ToBytes) (fromBytes : FromBytes) (now : Nat) (m : Metrics)
    (b : ReloadableBlocklist) (obs : Option ObservabilityRegistry)
    (persisted : PersistedMetrics) (names : List Str) (policy : UpstreamSelectionPolicy)
    (es : List EndToEndEvent) (s : EndToEndState)
    (hrun : run (EndToEndState.step U text cfg toBytes fromBytes)
      (.init cfg now m b obs persisted names policy) es = some s) :
    let step := EndToEndState.step U text cfg toBytes fromBytes
    let start := EndToEndState.init cfg now m b obs persisted names policy
    let serveEvents := trace step (EndToEndState.serveEvent fromBytes) start es
    (∀ (i : Nat) c t, s.clients.sessions[i]? = some c → s.clients.tasks.tasks[i]? = some t →
      SessionOk toBytes fromBytes s.clients.resolver c (callsOf s.clients.owners i) t) ∧
    (∀ (i : Nat) c answer o, s.clients.resolver.calls[i]? = some c →
      c.phase = .done answer o → answer.id = c.query.id ∧
        Explained U text cfg toBytes start.serve serveEvents names.length s.serve i c answer) ∧
    s.Apart ∧
    run (ServeState.step U text cfg toBytes) start.serve serveEvents = some s.serve ∧
    run (ClientsState.step U text cfg toBytes fromBytes) start.clients
      (trace step EndToEndState.clientsEvent start es) = some s.clients := by
  intro step start serveEvents
  have hserve : run (ServeState.step U text cfg toBytes) start.serve serveEvents =
      some s.serve :=
    run_trace EndToEndState.serve (fun _ _ _ => EndToEndState.serve_step) hrun
  have hclients : run (ClientsState.step U text cfg toBytes fromBytes) start.clients
      (trace step EndToEndState.clientsEvent start es) = some s.clients :=
    run_trace EndToEndState.clients (fun _ _ _ => EndToEndState.clients_step) hrun
  have hinv : ClientsState.Inv toBytes fromBytes s.clients :=
    (Passes.finish hclients).invariant_of_step (.start _ _ rfl) fun _ _ _ h hs => h.step hs
  refine ⟨hinv.sessions, ?_, ?_, hserve, hclients⟩
  · intro i c answer o hc hdone
    exact explained_of_run hserve hc hdone
  · refine (Passes.finish hrun).invariant_of_step ?_ fun _ _ _ h hs => h.step hs
    intro l i hi
    cases hi

/-! A query over DoT, whose first upstream times out, and the same question
over DoH once the answer is cached. -/

/-- A query for ads.example, from behind its ID. -/
def adsQueryTail : List UInt8 := [0x01, 0, 0, 1, 0, 0, 0, 0, 0, 0] ++ adsQuestionBytes

/-- The upstream's answer, from behind its ID. -/
def adsReplyTail : List UInt8 :=
  [0x80, 0, 0, 1, 0, 1, 0, 0, 0, 0] ++ adsQuestionBytes ++
    [0xC0, 0x0C, 0, 1, 0, 1, 0, 0, 0x01, 0x2C, 0, 4, 0x5D, 0xB8, 0xD8, 0x22]

/-- The codec on the question for `ads.example` and the answer to it. -/
def adsEncode : ToBytes := fun m =>
  if m = adsQuery m.id then .ok (u16Bytes m.id ++ adsQueryTail)
  else if m = adsResponse.setId m.id then .ok (u16Bytes m.id ++ adsReplyTail)
  else .error []

/-- The decoder on such queries. -/
def adsDecode : FromBytes := fun bytes =>
  if bytes.drop 2 = adsQueryTail then .ok (adsQuery (.ofNat (u16OfBytes (bytes.take 2))))
  else .error []

/-- The query as a POST. -/
def adsPost (id : UInt16) : DohRequest where
  method := .post
  path := dnsQueryPath
  headers := [(contentTypeHeader, utf8 dnsMessageType)]
  params := .error (.rejected .badRequest)
  body := .ok (u16Bytes id ++ adsQueryTail)

def bothServersStart : EndToEndState :=
  .init adsConfig 0 {} (.fromConfig adsConfig.blocklist) none {} ["a".toList, "b".toList]
    .sequential

/-- A DoT client asks and is answered; a DoH client asks the same and finds
it cached. -/
def bothServersRun : List EndToEndEvent :=
  [.client (.accept .dot (.v4 0xCB007101)), .client (.accept .doh (.v4 0xCB007102)),
   .client (.task (.handshake 0 (some (.ok ())))), .client (.task (.handshake 1 (some (.ok ())))),
   .client (.receive 0 (frame (u16Bytes 1 ++ adsQueryTail))), .client (.read 0 none),
   .serve (.lookup .dot 0), .serve (.pending .dot (.join 0)), .serve (.query .dot 0 0),
   .serve (.attempt 0 { result := .error .timeout }),
   .serve (.attempt 0 { result := .ok adsResponse }), .serve (.answer 0),
   .serve (.pending .dot (.remove 0)), .serve (.pending .dot (.publish 0)),
   .serve (.pending .dot (.poll 0)), .serve (.resume .dot 0), .serve (.resolver (.insert 0 0)),
   .client (.resolved 0), .client (.request 1 (adsPost 2)), .serve (.lookup .doh 1),
   .client (.write 0 (some (.ok ())) 0), .client (.respond 1)]

theorem client_answers_explained_both_servers :
    ∃ s c, run (EndToEndState.step .ascii sampleText adsConfig adsEncode adsDecode)
        bothServersStart bothServersRun = some s ∧
      (s.clients.sessions.map Session.output, s.clients.sessions.map fun c => c.exchanges.map
        Prod.snd) = ([frame (u16Bytes 1 ++ adsReplyTail), []],
          [[], [⟨.ok, some dnsMessageType, u16Bytes 2 ++ adsReplyTail⟩]]) ∧
      s.clients.resolver.calls[1]? = some c ∧ s.listenerOf 0 = some .dot ∧
      Explained .ascii sampleText adsConfig adsEncode bothServersStart.serve
        (trace (EndToEndState.step .ascii sampleText adsConfig adsEncode adsDecode)
          (EndToEndState.serveEvent adsDecode) bothServersStart bothServersRun) 2 s.serve 1 c
        (adsResponse.setId 2) := by
  have hrun : ∃ s, run (EndToEndState.step .ascii sampleText adsConfig adsEncode adsDecode)
        bothServersStart bothServersRun = some s ∧
      ((s.clients.sessions.map Session.output, s.clients.sessions.map fun c => c.exchanges.map
        Prod.snd), s.clients.resolver.calls[1]?, s.owners .dot) =
      (([frame (u16Bytes 1 ++ adsReplyTail), []],
          [[], [⟨.ok, some dnsMessageType, u16Bytes 2 ++ adsReplyTail⟩]]),
        some ⟨adsQuery 2, some (.v4 0xCB007102), some .allow,
          .done (adsResponse.setId 2) (some (.upstream (adsQuery 1)))⟩, [0]) :=
    Option.map_eq_some_iff.mp (by decide +kernel)
  obtain ⟨s, hs, hseen⟩ := hrun
  simp only [Prod.mk.injEq] at hseen
  obtain ⟨⟨hout, hexch⟩, hc, howners⟩ := hseen
  obtain ⟨_, hexplained, hapart, _⟩ := client_answers_explained .ascii sampleText adsConfig
    adsEncode adsDecode 0 {} _ none {} ["a".toList, "b".toList] .sequential bothServersRun s hs
  exact ⟨s, _, hs, Prod.ext hout hexch, hc,
    hapart .dot 0 (by rw [howners]; exact List.mem_singleton_self 0),
    (hexplained 1 _ _ _ hc rfl).2⟩

end Dotdns
