import Dotdns.Server.Origins
import Dotdns.Server.Pending
import Dotdns.Upstream.Plain

/-!
# Process — what `run_serve` wires together

One cache, one blocklist and one set of counters, shared by the query
listeners, the management server and the periodic refresh, in front of a
pool of upstreams. The `enabled` flag of the blocklist is read where the
process starts and where the periodic refresh is spawned; a management
reload does not read it.

Two headlines about whole runs: what the reloads of a DISABLED blocklist
may bring for it never to block, and what the first datagram of every
plain query has to be for nothing but answers to reach a client or the
cache.
-/

namespace Dotdns

open Lib ResolverState

/-- The state `run_serve` serves from. `m` is what the statistics file
restored, or all zero; `io` and `disk` are what an initial load finds. -/
def runServe (U : UnicodeCase) (cfg : ResolveConfig) (now : Nat) (m : Metrics) (io : ReloadIo)
    (disk : Disk) : ResolverState :=
  ResolverState.init cfg now m (ReloadableBlocklist.start U cfg.blocklist io disk).1 (some {})

/-! ## What a step does to the blocklist and to its counter -/

namespace ResolverState

section
variable {U : UnicodeCase} {text : LabelText} {cfg : ResolveConfig}
variable {s s' : ResolverState} {e : ResolverEvent}

theorem blocklist_arrive {query : Message} {clientIp : Option IpAddr} :
    (s.arrive U text query clientIp).blocklist = s.blocklist := by
  unfold arrive
  cases query.queries.head? with
  | none => rfl
  | some q =>
      dsimp only
      split <;> rfl

theorem blocklist_lookup {i : Nat} {c : Call} :
    (s.lookup cfg i c).blocklist = s.blocklist := by
  unfold lookup
  split <;> rfl

/-- **Every way the blocklist can change**: a management reload, or a
periodic refresh of an enabled one. -/
theorem step_blocklist (hs : s.step U text cfg e = some s') :
    s'.blocklist = s.blocklist ∨
    ∃ io disk, s'.blocklist = (s.blocklist.refreshAndReload U io disk).2.1 ∧
      (e = .manage .blocklistReload io disk ∨
        e = .refresh io disk ∧ cfg.blocklist.enabled = true) := by
  cases step_cases hs with
  | arrive query clientIp => exact .inl blocklist_arrive
  | lookup _ _ => exact .inl blocklist_lookup
  | manage req io disk =>
      cases req with
      | blocklistReload => exact .inr ⟨io, disk, rfl, .inl rfl⟩
      | _ => exact .inl rfl
  | refresh io disk hen _ => exact .inr ⟨io, disk, rfl, .inr ⟨rfl, hen⟩⟩
  | _ => exact .inl rfl

theorem blockedQueries_arrive {query : Message} {clientIp : Option IpAddr} :
    (s.arrive U text query clientIp).metrics.blockedQueries =
      if (newCall U text s.blocklist query clientIp).isBlocked
      then s.metrics.blockedQueries + 1 else s.metrics.blockedQueries := by
  unfold arrive newCall Call.isBlocked
  cases query.queries.head? with
  | none => rfl
  | some q =>
      dsimp only [Option.any_some]
      split <;> rfl

theorem blockedQueries_lookup {i : Nat} {c : Call} :
    (s.lookup cfg i c).metrics.blockedQueries = s.metrics.blockedQueries := by
  have hget := Cache.get_blockedQueries s.cache s.metrics s.now (c.upstreamQuery cfg)
  unfold lookup
  split
  · rename_i heq
    rw [heq] at hget
    exact hget
  · rename_i heq
    rw [heq] at hget
    exact hget

/-- The counter moves only for an arrival that is decided `Block`. -/
theorem step_blockedQueries (hs : s.step U text cfg e = some s') :
    s'.metrics.blockedQueries = s.metrics.blockedQueries ∨
    ∃ query clientIp, e = .arrive query clientIp ∧
      (newCall U text s.blocklist query clientIp).isBlocked = true := by
  cases step_cases hs with
  | arrive query clientIp =>
      rw [blockedQueries_arrive]
      cases hb : (newCall U text s.blocklist query clientIp).isBlocked with
      | true => exact .inr ⟨query, clientIp, rfl, hb⟩
      | false => exact .inl rfl
  | lookup _ _ => exact .inl blockedQueries_lookup
  | store _ _ _ => exact .inl (Cache.insert_blockedQueries ..)
  | insert _ _ _ => exact .inl (Cache.insert_blockedQueries ..)
  | manage req io disk =>
      refine .inl ?_
      cases req <;> rfl
  | _ => exact .inl rfl

end

end ResolverState

/-! ## Reloads that bring nothing to block -/

/-- A reload leaves the rules as they are, or finds no block rule in the
files for block rules once its downloads are in place. -/
def BringsNoBlockRule (U : UnicodeCase) (b : ReloadableBlocklist) (io : ReloadIo) (disk : Disk) :
    Prop :=
  let disk' := (b.refreshAndReload U io disk).2.2
  ¬ b.RefreshSucceeds io ∨ ¬ Readable disk' b.allPaths ∨
    ∀ l ∈ linesOf disk' b.allBlockPaths, ∀ r, parseLine U l ≠ .block r

/-- The blocklist of the configuration, with no block rule. -/
def BlocksNothing (config : BlocklistConfig) (b : ReloadableBlocklist) : Prop :=
  ∃ engine, b = { ReloadableBlocklist.fromConfig config with engine } ∧ engine.blocks = ∅

section
variable {U : UnicodeCase}

/-- What a refresh leaves on disk does not depend on the rules in force. -/
theorem disk_refreshAndReload (b : ReloadableBlocklist) (engine : BlocklistEngine)
    (io : ReloadIo) (disk : Disk) :
    ({ b with engine }.refreshAndReload U io disk).2.2 = (b.refreshAndReload U io disk).2.2 := by
  unfold ReloadableBlocklist.refreshAndReload
  dsimp only
  split
  · rfl
  · split <;> rfl

theorem BlocksNothing.reload {config : BlocklistConfig} {b : ReloadableBlocklist}
    (h : BlocksNothing config b) {io : ReloadIo} {disk : Disk}
    (hbring : BringsNoBlockRule U (.fromConfig config) io disk) :
    BlocksNothing config (b.refreshAndReload U io disk).2.1 := by
  obtain ⟨engine, rfl, hempty⟩ := h
  rcases ReloadableBlocklist.refreshAndReload_cases (U := U)
    { ReloadableBlocklist.fromConfig config with engine } io disk with ⟨hs, hread, heq⟩ | ⟨_, heq⟩
  · rw [heq]
    rw [disk_refreshAndReload] at hread ⊢
    refine ⟨_, rfl, ?_⟩
    rcases hbring with hfail | hmissing | hnone
    · exact absurd hs hfail
    · exact absurd hread hmissing
    · rw [Finset.eq_empty_iff_forall_notMem]
      intro rule hrule
      obtain ⟨l, hl, hp⟩ := mem_blockRules.mp hrule
      exact hnone l hl rule hp
  · rw [heq]
    exact ⟨engine, rfl, hempty⟩

theorem BlocksNothing.decide_ne {config : BlocklistConfig} {b : ReloadableBlocklist}
    (h : BlocksNothing config b) (domain : Str) : b.decide U domain ≠ .block := by
  obtain ⟨engine, rfl, hempty⟩ := h
  have hnone : ∀ n, BlocklistEngine.ruleMatches engine.blocks n = false := by
    intro n
    simp [BlocklistEngine.ruleMatches, hempty]
  show engine.decide U domain ≠ .block
  simp only [BlocklistEngine.decide, hnone, Bool.false_eq_true, if_false]
  split <;> simp

theorem BlocksNothing.newCall_not_blocked {text : LabelText} {config : BlocklistConfig}
    {b : ReloadableBlocklist} (h : BlocksNothing config b) (query : Message)
    (clientIp : Option IpAddr) : (newCall U text b query clientIp).isBlocked = false := by
  rw [Bool.eq_false_iff]
  intro hb
  have hd := Call.isBlocked_iff.mp hb
  unfold newCall at hd
  cases hq : query.queries.head? with
  | none =>
      rw [hq] at hd
      cases hd
  | some q =>
      rw [hq] at hd
      exact h.decide_ne _ (Option.some.inj hd)

end

/-! ## The process -/

section
variable {U : UnicodeCase} {text : LabelText} {cfg : ResolveConfig} {n : UInt64}
variable {s s' : ResolverState} {e : ResolverEvent}

/-- Nothing in the process is blocked or ever was. -/
structure NeverBlocks (cfg : ResolveConfig) (n : UInt64) (s : ResolverState) : Prop where
  blocklist : BlocksNothing cfg.blocklist s.blocklist
  counter : s.metrics.blockedQueries = n
  decided : ∀ (j : Nat) c, s.calls[j]? = some c → c.isBlocked = false
  lookups : LookupDecided s
  calls : ∀ (j : Nat) c, s.calls[j]? = some c → AllowedCallOk c
  cache : ∀ k en, s.cache.entries.get? k = some en → en.origin.isBlocked = false

/-- Every event but a reload that brings a block rule. -/
def ReloadsBringNothing (U : UnicodeCase) (config : BlocklistConfig) (e : ResolverEvent) : Prop :=
  ∀ io disk, e = .manage .blocklistReload io disk →
    BringsNoBlockRule U (.fromConfig config) io disk

theorem NeverBlocks.avoidsBlocked (h : NeverBlocks cfg n s) (i : Nat) :
    LookupAvoidsBlocked cfg s i := by
  intro c en d _ _ _ hlive
  obtain ⟨k, _, hen⟩ := Option.bind_eq_some_iff.mp hlive.1
  exact h.cache k en hen

theorem NeverBlocks.step (h : NeverBlocks cfg n s) (hdis : cfg.blocklist.enabled = false)
    (hbring : ReloadsBringNothing U cfg.blocklist e) (hs : s.step U text cfg e = some s') :
    NeverBlocks cfg n s' where
  blocklist := by
    rcases step_blocklist hs with heq | ⟨io, disk, heq, rfl | ⟨_, hen⟩⟩
    · rw [heq]
      exact h.blocklist
    · rw [heq]
      exact h.blocklist.reload (hbring io disk rfl)
    · -- the periodic refresh is not even spawned
      rw [hdis] at hen
      cases hen
  counter := by
    rcases step_blockedQueries hs with heq | ⟨query, clientIp, _, hb⟩
    · rw [heq, h.counter]
    · rw [h.blocklist.newCall_not_blocked] at hb
      cases hb
  decided := forall_calls_step h.decided hs h.blocklist.newCall_not_blocked
    fun _ _ _ _ hc _ => hc
  lookups := lookupDecided_step h.lookups hs
  calls := allowedCallOk_step h.lookups h.calls hs fun i _ => h.avoidsBlocked i
  cache k en hk := by
    -- only a call in the `store` phase could add a block answer, and none is
    rcases step_entries hs hk with hk | ⟨j, c, hc, _, ⟨hstore, _⟩ | ⟨_, _, _, ho⟩⟩
    · exact h.cache k en hk
    · exact absurd hstore (h.calls j c hc (h.decided j c hc)).1
    · rw [ho]
      rfl

end

/-- **A disabled blocklist blocks nothing**, in every run of the process in
which no management reload brings a block rule: the counter stays where it
started and no query is answered with a block answer. -/
theorem disabled_never_blocks (U : UnicodeCase) (text : LabelText) (cfg : ResolveConfig)
    (now : Nat) (m : Metrics) (io : ReloadIo) (disk : Disk) (es : List ResolverEvent)
    (hdis : cfg.blocklist.enabled = false)
    (hbring : ∀ e ∈ es, ReloadsBringNothing U cfg.blocklist e) (s : ResolverState)
    (hpass : Passes (step U text cfg) (runServe U cfg now m io disk) es s) :
    s.metrics.blockedQueries = m.blockedQueries ∧
      ∀ c ∈ s.calls, ∀ msg q, c.phase ≠ .done msg (some (.blocked q)) := by
  -- carried: no block rule is loaded, none has blocked, none is cached
  have hinv : NeverBlocks cfg m.blockedQueries s := by
    refine hpass.invariant ⟨⟨{}, ?_, rfl⟩, rfl, ?_, ?_, ?_, ?_⟩ fun s e s' ht hi =>
      hi.step hdis (hbring e ht.mem) ht.step_eq
    · show (ReloadableBlocklist.start U cfg.blocklist io disk).1 = _
      rw [ReloadableBlocklist.start, hdis]
      rfl
    · intro j c hj
      cases hj
    · intro j c hj
      cases hj
    · intro j c hj
      cases hj
    · intro k en hk
      cases hk
  refine ⟨hinv.counter, ?_⟩
  intro c hc
  obtain ⟨j, hj⟩ := List.mem_iff_getElem?.mp hc
  exact (hinv.calls j c hj (hinv.decided j c hj)).2

/-! The configuration of `adsConfig`, disabled. -/

/-- The blocklist is turned off. -/
def disabledConfig : ResolveConfig :=
  { adsConfig with blocklist := { adsConfig.blocklist with enabled := false } }

/-- A start that loads no list. -/
def disabledStart : ResolverState :=
  runServe .ascii disabledConfig 0 {} ⟨{ fetch := fun _ => none }, { fetch := fun _ => none }⟩
    sampleDisk

/-- A reload of a list with no rules, then a query. -/
theorem disabled_never_blocks_empty_list :
    ∃ s, Passes (step .ascii sampleText disabledConfig) disabledStart
      [reloadFrom (fun _ => some "! no rules".toList), .arrive (adsQuery 1) none, .lookup 0,
       .reply 0 (.ok adsResponse), .insert 0 0] s ∧
    s.calls.length = 1 ∧ s.metrics.blockedQueries = 0 ∧
      ∀ c ∈ s.calls, ∀ msg q, c.phase ≠ .done msg (some (.blocked q)) := by
  have hlast : (run (step .ascii sampleText disabledConfig) disabledStart
      [reloadFrom (fun _ => some "! no rules".toList), .arrive (adsQuery 1) none, .lookup 0,
       .reply 0 (.ok adsResponse), .insert 0 0]).map (fun s => s.calls.length) = some 1 := by
    decide +kernel
  obtain ⟨s, hs, hlen⟩ := Option.map_eq_some_iff.mp hlast
  refine ⟨s, .finish hs, hlen, disabled_never_blocks .ascii sampleText disabledConfig 0 {} _ _ _
    rfl ?_ s (.finish hs)⟩
  intro e he io disk hreload
  subst hreload
  simp only [reloadFrom, List.mem_cons, ResolverEvent.manage.injEq, reduceCtorEq,
    List.not_mem_nil, or_false, true_and] at he
  obtain ⟨rfl, rfl⟩ := he
  refine .inr (.inr ?_)
  intro l hl r
  have hl : l ∈ ["! no rules".toList] := hl
  have hskip : parseLine .ascii "! no rules".toList = .skip := by decide
  rw [List.mem_singleton.mp hl, hskip]
  simp

/-- A management reload loads the local list although the blocklist is
disabled, and the next query for its name is counted and blocked. -/
theorem disabled_query_blocked_after_reload :
    disabledConfig.blocklist.enabled = false ∧
    disabledStart.metrics.blockedQueries = 0 ∧
    ∃ s, Passes (step .ascii sampleText disabledConfig) disabledStart
      [reloadFrom sampleDisk, .arrive (adsQuery 1) none, .lookup 0, .store 0 0] s ∧
    s.metrics.blockedQueries = 1 ∧
    ∃ c ∈ s.calls, c.phase = .done (makeBlockedResponse (adsQuery 1) disabledConfig.blocklist)
      (some (.blocked (adsQuery 1))) := by
  have hlast : (run (step .ascii sampleText disabledConfig) disabledStart
      [reloadFrom sampleDisk, .arrive (adsQuery 1) none, .lookup 0, .store 0 0]).map
        (fun s => (s.metrics.blockedQueries, s.calls[0]?)) =
      some (1, some ⟨adsQuery 1, none, some .block,
        .done (makeBlockedResponse (adsQuery 1) disabledConfig.blocklist)
          (some (.blocked (adsQuery 1)))⟩) := by
    decide +kernel
  obtain ⟨s, hs, heq⟩ := Option.map_eq_some_iff.mp hlast
  obtain ⟨hcount, hc⟩ := Prod.mk.inj heq
  exact ⟨rfl, rfl, s, .finish hs, hcount, _, List.mem_of_getElem? hc, rfl⟩

/-! ## Plain upstreams -/

/-- `reply` is what one of `ups` returned, in circumstances of which `Q`
holds, to the task that the calls asking `u` were waiting for: its query
`sent` has the pending key of `u`. -/
def PlainReply (toBytes : ToBytes) (fromBytes : FromBytes) (ups : List PlainUpstream)
    (Q : PlainUpstream → PlainIo → Message → Message → Via → Prop) (u reply : Message) : Prop :=
  ∃ up ∈ ups, ∃ io sent via, pendingKey toBytes sent = pendingKey toBytes u ∧
    up.query toBytes fromBytes io sent = .ok (reply, via) ∧ Q up io sent reply via

/-- A message received over UDP answers what was sent. -/
def UdpAnswers (_up : PlainUpstream) (io : PlainIo) (sent reply : Message) (via : Via) : Prop :=
  ∀ datagram, via = .udp datagram → Answers io.udp.peer sent datagram reply

/-- **Only answers are taken**, exactly when the first datagram to reach the
socket in time is undecodable, truncated or itself an answer: then a
message that `query` returns over UDP comes from the upstream, is a
response, and carries the ID and the question of the query. In every run
of the resolver whose replies were obtained so, nothing else is cached or
returned to a client. -/
theorem plain_answers_iff (toBytes : ToBytes) (fromBytes : FromBytes) :
    (∀ (up : PlainUpstream) (io : PlainIo) (query : Message),
      (∀ msg datagram, up.query toBytes fromBytes io query = .ok (msg, .udp datagram) →
        Answers io.udp.peer query datagram msg) ↔
      FirstDatagramOk toBytes fromBytes up io.udp query) ∧
    ∀ (U : UnicodeCase) (text : LabelText) (cfg : ResolveConfig) (now : Nat) (m : Metrics)
      (b : ReloadableBlocklist) (obs : Option ObservabilityRegistry) (ups : List PlainUpstream)
      (es : List ResolverEvent),
      (∀ s i reply s' c, Takes (step U text cfg) (ResolverState.init cfg now m b obs) es s
          (.reply i (.ok reply)) s' → s.calls[i]? = some c →
        PlainReply toBytes fromBytes ups
          (fun up io sent _ _ => FirstDatagramOk toBytes fromBytes up io.udp sent)
          (c.upstreamQuery cfg) reply) →
      ∀ s, Passes (step U text cfg) (ResolverState.init cfg now m b obs) es s →
        (∀ k en u, s.cache.entries.get? k = some en → en.origin = .upstream u →
          ∃ reply, PlainReply toBytes fromBytes ups UdpAnswers u reply ∧
            FromReply reply en.message) ∧
        ∀ c ∈ s.calls, ∀ msg u, c.phase = .done msg (some (.upstream u)) →
          ∃ reply, PlainReply toBytes fromBytes ups UdpAnswers u reply ∧
            FromReply reply msg := by
  refine ⟨fun up io query => query_answers, ?_⟩
  intro U text cfg now m b obs ups es hreplies s hpass
  -- a reply over UDP answers its query when its first datagram does; the cache keeps it
  have hinv : RepliesOk cfg (PlainReply toBytes fromBytes ups UdpAnswers) s := by
    refine repliesOk_of_passes hpass ?_
    intro s i reply s' c ht hc
    obtain ⟨up, hup, io, sent, via, hkey, hquery, hfirst⟩ := hreplies s i reply s' c ht hc
    refine ⟨up, hup, io, sent, via, hkey, hquery, ?_⟩
    intro datagram hvia
    rw [hvia] at hquery
    exact query_answers.mpr hfirst reply datagram hquery
  constructor
  · intro k en u hk ho
    obtain ⟨reply, id, hreply, hm⟩ := hinv.cached k en u hk ho
    rw [hm]
    exact ⟨reply, hreply, .fresh id⟩
  · intro c hc msg u hp
    obtain ⟨j, hj⟩ := List.mem_iff_getElem?.mp hc
    exact hinv.returned j c msg u hj hp

/-! One query for `ads.example`, the upstream's answer to it, and a response
to another query that an attacker sends: as messages and on the wire. -/

/-- The upstream's answer. -/
def honest : Message :=
  { adsResponse with id := 0x1234, recursionDesired := true, recursionAvailable := true }

/-- ID `0x0666` and the address 6.6.6.6. -/
def spoofed : Message :=
  { honest with id := 0x0666, answers := [.fromRdata adsName 300 (.a 0x06060606)] }

/-- The question on the wire. -/
def adsQuestionBytes : List UInt8 :=
  [3, 0x61, 0x64, 0x73, 7, 0x65, 0x78, 0x61, 0x6D, 0x70, 0x6C, 0x65, 0, 0, 1, 0, 1]

/-- The answer on the wire. -/
def honestBytes : List UInt8 :=
  [0x12, 0x34, 0x81, 0x80, 0, 1, 0, 1, 0, 0, 0, 0] ++ adsQuestionBytes ++
  [0xC0, 0x0C, 0, 1, 0, 1, 0, 0, 0x01, 0x2C, 0, 4, 0x5D, 0xB8, 0xD8, 0x22]

/-- The attacker's response on the wire. -/
def spoofedBytes : List UInt8 :=
  [0x06, 0x66, 0x81, 0x80, 0, 1, 0, 1, 0, 0, 0, 0] ++ adsQuestionBytes ++
  [0xC0, 0x0C, 0, 1, 0, 1, 0, 0, 0x01, 0x2C, 0, 4, 6, 6, 6, 6]

/-- The codec on these three messages. -/
def wireTable : List (Message × List UInt8) :=
  [(adsQuery 0x1234, [0x12, 0x34, 0x01, 0, 0, 1, 0, 0, 0, 0, 0, 0] ++ adsQuestionBytes),
   (honest, honestBytes), (spoofed, spoofedBytes)]

/-- The encoder of the table. -/
def wireToBytes : ToBytes := fun m =>
  match wireTable.find? fun e => decide (e.1 = m) with
  | some e => .ok e.2
  | none => .error []

/-- The decoder of the table. -/
def wireFromBytes : FromBytes := fun bytes =>
  match wireTable.find? fun e => decide (e.2 = bytes) with
  | some e => .ok e.1
  | none => .error "unexpected end of input".toList

/-- The upstream at 192.0.2.53. -/
def adsUpstream : PlainUpstream := .new "192.0.2.53:53".toList (Duration.fromSecs 5)

/-- What reaches the socket is `inbox`, and nothing listens on TCP. -/
def inboxIo (inbox : List Datagram) : PlainIo where
  udp :=
    { peer := ⟨.v4 0xC0000235, 53⟩
      inbox := inbox.map fun datagram => { value := .ok datagram } }
  tcp := { connect := { value := .error "refused".toList }, ending := { value := [] } }

def honestDatagram : Datagram := ⟨⟨.v4 0xC0000235, 53⟩, honestBytes⟩

/-- Sent from 203.0.113.6, not from the upstream. -/
def spoofedDatagram : Datagram := ⟨⟨.v4 0xCB007106, 40000⟩, spoofedBytes⟩

/-- The attacker's datagram comes first: its message is returned, handed to
the client and cached. -/
theorem spoofed_datagram_served :
    adsUpstream.query wireToBytes wireFromBytes (inboxIo [spoofedDatagram, honestDatagram])
      (adsQuery 0x1234) = .ok (spoofed, .udp spoofedDatagram) ∧
    spoofedDatagram.source ≠ (inboxIo [spoofedDatagram, honestDatagram]).udp.peer ∧
    spoofed.id ≠ (adsQuery 0x1234).id ∧
    ∃ s, Passes (step .ascii sampleText adsConfig) adsStart
      [.arrive (adsQuery 0x1234) none, .lookup 0, .reply 0 (.ok spoofed), .insert 0 0] s ∧
    (∃ c ∈ s.calls, c.query = adsQuery 0x1234 ∧
      c.phase = .done (spoofed.setId 0x1234) (some (.upstream (adsQuery 0x1234)))) ∧
    ∃ en, s.cache.lookup (adsQuery 0x1234) = some en ∧
      en.message = spoofed.setId 0x1234 := by
  refine ⟨rfl, by decide, by decide, ?_⟩
  have hlast : (run (step .ascii sampleText adsConfig) adsStart
      [.arrive (adsQuery 0x1234) none, .lookup 0, .reply 0 (.ok spoofed), .insert 0 0]).map
        (fun s => (s.calls[0]?, (s.cache.lookup (adsQuery 0x1234)).map CacheEntry.message)) =
      some (some ⟨adsQuery 0x1234, none, some .allow,
          .done (spoofed.setId 0x1234) (some (.upstream (adsQuery 0x1234)))⟩,
        some (spoofed.setId 0x1234)) := by
    decide +kernel
  obtain ⟨s, hs, heq⟩ := Option.map_eq_some_iff.mp hlast
  obtain ⟨hc, hen⟩ := Prod.mk.inj heq
  exact ⟨s, .finish hs, ⟨_, List.mem_of_getElem? hc, rfl, rfl⟩, Option.map_eq_some_iff.mp hen⟩

/-- The upstream's datagram comes first. -/
theorem honest_datagram_ok : FirstDatagramOk wireToBytes wireFromBytes adsUpstream
    (inboxIo [honestDatagram, spoofedDatagram]).udp (adsQuery 0x1234) := by
  intro datagram msg hfirst hdec _
  obtain ⟨first, hhead, hvalue, _⟩ := hfirst.arrived
  cases hhead
  cases hvalue
  cases hdec
  exact ⟨rfl, rfl, rfl, .cons ⟨rfl, rfl, rfl⟩ .nil⟩

theorem honest_datagram_served :
    ∃ s, Passes (step .ascii sampleText adsConfig) adsStart
      [.arrive (adsQuery 0x1234) none, .lookup 0, .reply 0 (.ok honest), .insert 0 0] s ∧
    s.calls.length = 1 ∧
    ∀ c ∈ s.calls, ∀ msg u, c.phase = .done msg (some (.upstream u)) →
      ∃ reply, PlainReply wireToBytes wireFromBytes [adsUpstream] UdpAnswers u reply ∧
        FromReply reply msg := by
  have hlast : (run (step .ascii sampleText adsConfig) adsStart
      [.arrive (adsQuery 0x1234) none, .lookup 0, .reply 0 (.ok honest), .insert 0 0]).map
        (fun s => s.calls.length) = some 1 := by
    decide +kernel
  obtain ⟨s, hs, hlen⟩ := Option.map_eq_some_iff.mp hlast
  refine ⟨s, .finish hs, hlen, ((plain_answers_iff wireToBytes wireFromBytes).2 .ascii sampleText
    adsConfig 0 {} _ none [adsUpstream] _ ?_ s (.finish hs)).2⟩
  intro s i reply s' c ht hc
  have harr := arrived_of_passes ht.source i c hc
  have hreply := ht.mem
  simp only [List.mem_cons, ResolverEvent.arrive.injEq, ResolverEvent.reply.injEq,
    Except.ok.injEq, reduceCtorEq, List.not_mem_nil, false_or, or_false] at harr hreply
  refine ⟨adsUpstream, List.mem_singleton_self _, inboxIo [honestDatagram, spoofedDatagram],
    adsQuery 0x1234, .udp honestDatagram, ?_, ?_, honest_datagram_ok⟩
  · unfold Call.upstreamQuery
    rw [harr.1, harr.2]
    rfl
  · rw [hreply.2]
    rfl

end Dotdns
