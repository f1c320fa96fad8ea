import Dotdns.Cache.Lifetime
import Dotdns.Server.Response

/-!
# Server — the TTL of a block answer

`make_blocked_response` takes the whole seconds of `blocked_ttl`, while
`Config::validate` only asks for a duration that is not zero: half a
second passes, and every record then has a TTL of zero.
-/

namespace Dotdns

open Lib

/-- A block answer is one address record, or one SOA record. -/
theorem makeBlockedResponse_sections {query : Message} {q : Query}
    (hq : query.queries.head? = some q) (config : BlocklistConfig) :
    let resp := makeBlockedResponse query config
    (resp.additionals = [] ∧ resp.nameServers = [] ∧
      (resp.answers = [.fromRdata q.name (blockedTtl config) (.a 0)] ∨
        resp.answers = [.fromRdata q.name (blockedTtl config) (.aaaa 0)])) ∨
    (resp.additionals = [] ∧ resp.answers = [] ∧
      resp.nameServers = [blockedSoa q.name (blockedTtl config)]) := by
  intro resp
  cases hmode : config.responseMode with
  | nullIp =>
      cases htype : q.queryType with
      | A => simp [resp, makeBlockedResponse, hq, hmode, htype, queryMeta]
      | AAAA => simp [resp, makeBlockedResponse, hq, hmode, htype, queryMeta]
      | other code => simp [resp, makeBlockedResponse, hq, hmode, htype, queryMeta]
  | noData => simp [resp, makeBlockedResponse, hq, hmode, queryMeta]
  | nxDomain => simp [resp, makeBlockedResponse, hq, hmode, queryMeta]

/-- The one record, its TTL, and the SOA minimum. -/
theorem records_makeBlockedResponse {query : Message} {q : Query}
    (hq : query.queries.head? = some q) (config : BlocklistConfig) :
    ∃ r : Record, (makeBlockedResponse query config).records = [r] ∧
      r.ttl = blockedTtl config ∧
      (∀ mname rname serial refresh retry expire minimum,
        r.data = some (.soa mname rname serial refresh retry expire minimum) →
        minimum = r.ttl) ∧
      ((makeBlockedResponse query config).answers ≠ [] ∨
        (makeBlockedResponse query config).nameServers ≠ []) := by
  rcases makeBlockedResponse_sections hq config with ⟨hadd, hns, ha | ha⟩ | ⟨hadd, ha, hns⟩
  · refine ⟨_, by rw [Message.records, hadd, hns, ha]; rfl, rfl, ?_, .inl (by simp [ha])⟩
    simp [Record.fromRdata]
  · refine ⟨_, by rw [Message.records, hadd, hns, ha]; rfl, rfl, ?_, .inl (by simp [ha])⟩
    simp [Record.fromRdata]
  · refine ⟨_, by rw [Message.records, hadd, hns, ha]; rfl, rfl, ?_, .inr (by simp [hns])⟩
    intro mname rname serial refresh retry expire minimum h
    cases h
    rfl

/-- What a block answer needs so that others can keep it. -/
structure Cacheable (config : Config) (query response : Message) : Prop where
  records : response.answers ≠ [] ∨ response.nameServers ≠ []
  ttl : ∀ r ∈ response.records, 1 ≤ r.ttl.toNat ∧ r.ttl.toNat ≤ 2 ^ 32 - 1
  soa : ∀ r ∈ response.records, ∀ mname rname serial refresh retry expire minimum,
    r.data = some (.soa mname rname serial refresh retry expire minimum) → minimum = r.ttl
  /-- The resolver's own cache finds it again, for any client. -/
  cached : ∀ (s : CacheState) (now pick : Nat) (clientIp : Option IpAddr) (edns : EdnsConfig),
    s.cache.config = config.cache →
    let s' := s.step ⟨now, .insert (queryWithEcs query clientIp edns) response pick⟩
    ((s'.cache.get s'.metrics now (queryWithEcs query clientIp edns)).1).isSome = true

theorem toNat_blockedTtl (config : BlocklistConfig) :
    (blockedTtl config).toNat = min (Duration.asSecs config.blockedTtl) (2 ^ 32 - 1) := by
  unfold blockedTtl
  apply UInt32.toNat_ofNat_of_lt'
  show _ < 2 ^ 32
  omega

/-- A stored entry is found again at once exactly when it has a lifetime. -/
theorem isSome_get_insert {query response : Message} (h : Cache.stores query response = true)
    (s : CacheState) (now pick : Nat) {ttl : Nat}
    (httl : lifetime s.cache.config response = some ttl) :
    let s' := s.step ⟨now, .insert query response pick⟩
    ((s'.cache.get s'.metrics now query).1).isSome = true ↔ 0 < ttl := by
  intro s'
  obtain ⟨ttl', httl', hlookup⟩ := Cache.lookup_insert h s.cache s.metrics now pick ()
  obtain rfl : ttl = ttl' := Option.some.inj (httl.symm.trans httl')
  constructor
  · intro hsome
    obtain ⟨⟨msg, o⟩, hget⟩ := Option.isSome_iff_exists.mp hsome
    obtain ⟨e, hfound, hlive, _⟩ := Cache.get_eq_some_iff.mp hget
    have he : e = ⟨response, now, ttl, ()⟩ := Option.some.inj (hfound.symm.trans hlookup)
    rw [he] at hlive
    exact Nat.lt_of_le_of_lt (Nat.zero_le _) hlive
  · intro hpos
    have hlive : now - now < ttl := by omega
    have hget := (Cache.get_eq_some_iff (m := s'.metrics)).mpr ⟨_, hlookup, hlive, rfl, rfl⟩
    exact Option.isSome_iff_exists.mpr ⟨_, hget⟩

/-- The lifetime of a response with one record. -/
theorem lifetime_one_record (cfg : CacheConfig) {response : Message} {r : Record}
    (hr : response.records = [r]) (hpos : 1 ≤ r.ttl.toNat) :
    ∃ ttl, lifetime cfg response = some ttl ∧ (0 < ttl ↔ cfg.maxTtl ≠ some 0) := by
  rw [lifetime_eq, Message.leastTtl, hr]
  have hsecs : 0 < Duration.fromSecs r.ttl.toNat := by
    unfold Duration.fromSecs
    omega
  cases hmax : cfg.maxTtl with
  | none =>
      refine ⟨_, rfl, ?_⟩
      simp
      omega
  | some hi =>
      refine ⟨_, rfl, ?_⟩
      simp
      omega

/-- **Block answers and caches.** For every configuration, so for every
response mode, and every query with a question of any type: the block
answer has a record, every TTL lies between 1 and `u32::MAX` and is the SOA
minimum where there is one, and the cache keeps it, exactly when
`blocked_ttl` has at least one whole second and the cache's `max_ttl` is
not zero. -/
theorem blocked_answer_cacheable_iff (config : Config) (query : Message)
    (hq : query.queries ≠ []) :
    Cacheable config query (makeBlockedResponse query config.blocklist) ↔
      Duration.fromSecs 1 ≤ config.blocklist.blockedTtl ∧ config.cache.maxTtl ≠ some 0 := by
  obtain ⟨q, hhead⟩ : ∃ q, query.queries.head? = some q := by
    cases h : query.queries with
    | nil => exact absurd h hq
    | cons q qs => exact ⟨q, rfl⟩
  obtain ⟨r, hr, httl, hsoa, hsec⟩ := records_makeBlockedResponse hhead config.blocklist
  have hnat := toNat_blockedTtl config.blocklist
  -- `as_secs` rounds down, so less than a second is a TTL of zero
  have hsecond : Duration.fromSecs 1 ≤ config.blocklist.blockedTtl ↔ 1 ≤ r.ttl.toNat := by
    rw [httl, hnat]
    unfold Duration.fromSecs Duration.asSecs
    omega
  have hstores : ∀ clientIp edns, Cache.stores (queryWithEcs query clientIp edns)
      (makeBlockedResponse query config.blocklist) = true := by
    intro clientIp edns
    simp [Cache.stores, CacheKey.fromMessage, hhead, hr]
  rw [hsecond]
  constructor
  · intro h
    have hpos := (h.ttl r (by rw [hr]; exact List.mem_singleton_self r)).1
    obtain ⟨ttl, hlife, hiff⟩ := lifetime_one_record config.cache hr hpos
    refine ⟨hpos, hiff.mp ?_⟩
    exact (isSome_get_insert (hstores none {}) (.new config.cache {}) 0 0 hlife).mp
      (h.cached (.new config.cache {}) 0 0 none {} rfl)
  · intro h
    obtain ⟨hpos, hmax⟩ := h
    obtain ⟨ttl, hlife, hiff⟩ := lifetime_one_record config.cache hr hpos
    refine ⟨hsec, ?_, ?_, ?_⟩
    · intro r' hr'
      obtain rfl : r' = r := by simpa [hr] using hr'
      have hlt := r'.ttl.toNat_lt
      omega
    · intro r' hr'
      obtain rfl : r' = r := by simpa [hr] using hr'
      exact hsoa
    · intro s now pick clientIp edns hcfg
      rw [← hcfg] at hlife
      exact (isSome_get_insert (hstores clientIp edns) s now pick hlife).mpr (hiff.mpr hmax)

/-- The default `blocked_ttl` of five minutes, a name that does not exist
for the client. -/
theorem blocked_answer_cacheable_default :
    let config : Config := { serverBinds := [], blocklist := { responseMode := .nxDomain } }
    let query : Message := { queries := [⟨⟨[labelOf "example"], true⟩, .other 65, .IN⟩] }
    Cacheable config query (makeBlockedResponse query config.blocklist) := by
  intro config query
  exact (blocked_answer_cacheable_iff config query (by decide)).mpr ⟨by decide, by decide⟩

/-- `validate` accepts `blocked_ttl = 500ms`; the answer then has a TTL of
zero. -/
theorem blocked_answer_zero_ttl :
    let upstream : UpstreamEntry := { name := "mock".toList, address := "127.0.0.1:53".toList }
    let config : Config :=
      { serverBinds := [⟨.v4 0#32, 853⟩], upstreams := [upstream],
        blocklist := { blockedTtl := 500000000 } }
    let query : Message := { queries := [⟨⟨[labelOf "example"], true⟩, .A, .IN⟩] }
    config.validate (fun _ => false) (fun _ => false) = .ok () ∧
      ((makeBlockedResponse query config.blocklist).records.map Record.ttl) = [0] ∧
      ¬ Cacheable config query (makeBlockedResponse query config.blocklist) := by
  intro upstream config query
  refine ⟨by decide +kernel, by decide +kernel, ?_⟩
  intro h
  have hpos := (h.ttl _ (List.mem_singleton_self _)).1
  revert hpos
  decide +kernel

end Dotdns
