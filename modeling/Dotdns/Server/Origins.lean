import Dotdns.Server.Resolve

/-!
# Server — where answers come from

Synthesized block answers and upstream answers live in one cache under
one kind of key, and a lookup does not see which it gets. This module
follows the ghost origins over whole runs: of what a blocked query is
answered with, of what an allowed query is answered with, and of which
upstream query an answer taken from the cache was given to.

Each headline names, per lookup or per pair of queries, exactly what a
run has to avoid.
-/

namespace Dotdns

open Lib ResolverState

section
variable {U : UnicodeCase} {text : LabelText} {cfg : ResolveConfig}
variable {s s' : ResolverState} {e : ResolverEvent}

/-! ## The cache -/

/-- What the origin of an entry says about it. -/
def EntryOk (cfg : ResolveConfig) (k : CacheKey) (en : CacheEntry Origin) : Prop :=
  match en.origin with
  | .blocked q => (∃ clientIp, HasKey (queryWithEcs q clientIp cfg.edns) k) ∧
      en.message = makeBlockedResponse q cfg.blocklist
  | .upstream u => HasKey u k

/-- What is known of every entry. -/
def CacheOk (cfg : ResolveConfig) (s : ResolverState) : Prop :=
  ∀ k en, s.cache.entries.get? k = some en → EntryOk cfg k en

theorem cacheOk_step (h : CacheOk cfg s) (hs : s.step U text cfg e = some s') :
    CacheOk cfg s' := by
  intro k en hk
  rcases step_entries hs hk with hk | ⟨j, c, _, hkey, hblocked | hupstream⟩
  · exact h k en hk
  · obtain ⟨_, hm, ho⟩ := hblocked
    unfold EntryOk
    rw [ho]
    exact ⟨⟨c.clientIp, hkey⟩, hm⟩
  · obtain ⟨_, _, _, ho⟩ := hupstream
    unfold EntryOk
    rw [ho]
    exact hkey

/-- The fields a cache key pins down. -/
theorem hasKey_fields {query : Message} {k : CacheKey} (h : HasKey query k) :
    ∃ q, query.queries.head? = some q ∧ (q.name == k.name) = true ∧ q.queryType = k.qtype ∧
      q.queryClass = k.qclass ∧ query.recursionDesired = k.rd ∧ query.doBit = k.doBit ∧
      query.ecsBytes = k.ecs := by
  obtain ⟨key, hkey, hk⟩ := h
  obtain ⟨q, hq, rfl⟩ := Option.map_eq_some_iff.mp hkey
  obtain ⟨h1, h2, h3, h4, h5, h6⟩ := CacheKey.beq_iff.mp hk
  exact ⟨q, hq, h1, h2, h3, h4, h5, h6⟩

/-- An entry that a lookup of `query` would return now. -/
def LiveEntry (s : ResolverState) (query : Message) (en : CacheEntry Origin) : Prop :=
  s.cache.lookup query = some en ∧ s.now - en.insertedAt < en.ttl

theorem hit_of_get {query msg : Message} {origin : Origin}
    (h : (s.cache.get s.metrics s.now query).1 = some (msg, origin)) :
    ∃ en k ttl, LiveEntry s query en ∧ s.cache.entries.get? k = some en ∧ HasKey query k ∧
      en.origin = origin ∧ msg = en.message.withTtl ttl := by
  obtain ⟨en, hl, hlive, ho, hm⟩ := Cache.get_eq_some_iff.mp h
  obtain ⟨k, hk, he⟩ := Option.bind_eq_some_iff.mp hl
  exact ⟨en, k, _, ⟨hl, hlive⟩, he, ⟨k, hk, BEq.rfl⟩, ho, hm⟩

/-- A call after its look at the cache. -/
def lookedUp (cfg : ResolveConfig) (s : ResolverState) (c : Call) : Call :=
  match (s.cache.get s.metrics s.now (c.upstreamQuery cfg)).1 with
  | some (cached, origin) => { c with phase := .done (cached.setId c.query.id) (some origin) }
  | none => { c with phase := if c.isBlocked then .store else .waiting }

theorem calls_lookup {i : Nat} (hs : s.step U text cfg (.lookup i) = some s') :
    ∃ c, s.calls[i]? = some c ∧ c.phase = .lookup ∧ s'.calls[i]? = some (lookedUp cfg s c) := by
  cases step_cases hs with
  | @lookup _ c hi hp =>
      refine ⟨c, hi, hp, ?_⟩
      unfold ResolverState.lookup lookedUp
      split
      · rename_i hget
        rw [hget]
        exact getElem?_modify_eq_some.mpr (.inr ⟨rfl, c, hi, rfl⟩)
      · rename_i hget
        rw [hget]
        exact getElem?_modify_eq_some.mpr (.inr ⟨rfl, c, hi, rfl⟩)

/-- A lookup that has a live entry ends its call with that entry's message
and origin. -/
theorem lookup_hit {i : Nat} (hs : s.step U text cfg (.lookup i) = some s') {c : Call}
    (hc : s.calls[i]? = some c) {en : CacheEntry Origin}
    (hlive : LiveEntry s (c.upstreamQuery cfg) en) :
    ∃ ttl, s'.calls[i]? = some { c with
      phase := .done ((en.message.withTtl ttl).setId c.query.id) (some en.origin) } := by
  obtain ⟨c₀, hc₀, _, hafter⟩ := calls_lookup hs
  rw [hc] at hc₀
  cases hc₀
  rw [lookedUp, Cache.get_of_live hlive.1 hlive.2] at hafter
  exact ⟨_, hafter⟩

/-! ## Blocked calls -/

/-- A cached block answer is one for every query that finds it. -/
theorem isBlockAnswer_of_hit {c : Call} {k : CacheKey} {en : CacheEntry Origin} {q : Message}
    (hok : EntryOk cfg k en) (ho : en.origin = .blocked q) (hk : HasKey (c.upstreamQuery cfg) k)
    (ttl : UInt32) :
    IsBlockAnswer cfg.blocklist c.query ((en.message.withTtl ttl).setId c.query.id) := by
  unfold EntryOk at hok
  rw [ho] at hok
  obtain ⟨⟨clientIp, hq⟩, hm⟩ := hok
  obtain ⟨a, ha, haname, hatype, _⟩ := hasKey_fields hq
  obtain ⟨b, hb, hbname, hbtype, _⟩ := hasKey_fields hk
  rw [queryWithEcs_queries] at ha
  rw [Call.upstreamQuery, queryWithEcs_queries] at hb
  rw [hm]
  have hname : (a.name == b.name) = true := BEq.trans haname (BEq.symm hbname)
  exact ((makeBlockedResponse_congr ha hb hname (hatype.trans hbtype.symm) _).withTtl _).setId _

/-- On the way to a block answer for `query`, or there. -/
def BlockedPhaseOk (cfg : ResolveConfig) (query : Message) : CallPhase → Prop
  | .lookup | .store => True
  | .done msg o => IsBlockAnswer cfg.blocklist query msg ∧ ∃ q, o = some (.blocked q)
  | .waiting | .received _ | .cancelled => False

/-- A call whose name is blocked is at a place for such calls. -/
def BlockedCallOk (cfg : ResolveConfig) (c : Call) : Prop :=
  c.isBlocked = true → BlockedPhaseOk cfg c.query c.phase

/-- No blocked call's lookup can find an upstream's answer. -/
def LookupAvoidsUpstream (cfg : ResolveConfig) (s : ResolverState) (i : Nat) : Prop :=
  ∀ c en, s.calls[i]? = some c → c.decision = some .block →
    LiveEntry s (c.upstreamQuery cfg) en → en.origin.isBlocked = true

theorem Call.isBlocked_iff {c : Call} : c.isBlocked = true ↔ c.decision = some .block := by
  unfold Call.isBlocked
  cases c.decision with
  | none => simp
  | some d => cases d <;> simp [BlockDecision.isBlocked]

theorem blockedCallOk_step (hcache : CacheOk cfg s)
    (h : ∀ (j : Nat) c, s.calls[j]? = some c → BlockedCallOk cfg c)
    (hs : s.step U text cfg e = some s')
    (hav : ∀ i, e = .lookup i → LookupAvoidsUpstream cfg s i) :
    ∀ (j : Nat) c, s'.calls[j]? = some c → BlockedCallOk cfg c := by
  refine forall_calls_step h hs ?_ ?_
  · intro query clientIp
    unfold BlockedCallOk newCall
    cases query.queries.head? with
    | none =>
        intro hb
        cases hb
    | some q =>
        intro _
        trivial
  · intro j c phase hc hok hmove hb
    have hcb : c.isBlocked = true := hb
    have hbefore := hok hcb
    cases hmove with
    | hit he _ hget =>
        obtain ⟨en, k, ttl, hlive, hen, hk, rfl, rfl⟩ := hit_of_get hget
        have hblocked := hav j he c en hc (Call.isBlocked_iff.mp hcb) hlive
        cases ho : en.origin with
        | upstream u =>
            rw [ho] at hblocked
            cases hblocked
        | blocked q => exact ⟨isBlockAnswer_of_hit (hcache k en hen) ho hk ttl, q, rfl⟩
    | miss _ _ _ =>
        -- a blocked call never goes on to wait for an upstream
        show BlockedPhaseOk cfg c.query (if c.isBlocked then .store else .waiting)
        rw [if_pos hcb]
        trivial
    | stored _ _ => exact ⟨SameAnswer.refl _, c.query, rfl⟩
    | replied _ hp => rw [hp] at hbefore; exact hbefore.elim
    | failed _ hp => rw [hp] at hbefore; exact hbefore.elim
    | inserted _ hp => rw [hp] at hbefore; exact hbefore.elim
    | cancelled _ hp => rw [hp] at hbefore; exact hbefore.elim

end

/-- **Blocked queries get block answers**, in every state of a run from an
empty cache and never an upstream's message, exactly when no lookup made
for a blocked query finds a live entry that an upstream's answer left
under its key. -/
theorem blocked_answers_iff (U : UnicodeCase) (text : LabelText) (cfg : ResolveConfig)
    (now : Nat) (m : Metrics) (b : ReloadableBlocklist) (obs : Option ObservabilityRegistry)
    (es : List ResolverEvent) :
    let start := ResolverState.init cfg now m b obs
    (∀ s, Passes (step U text cfg) start es s → ∀ c ∈ s.calls, c.decision = some .block →
      ∀ msg o, c.phase = .done msg o →
        IsBlockAnswer cfg.blocklist c.query msg ∧ ∃ q, o = some (.blocked q)) ↔
    ∀ s i s', Takes (step U text cfg) start es s (.lookup i) s' →
      LookupAvoidsUpstream cfg s i := by
  intro start
  constructor
  · intro h s i s' ht c en hc hd hlive
    obtain ⟨ttl, hc'⟩ := lookup_hit ht.step_eq hc hlive
    obtain ⟨_, q, hq⟩ := h s' ht.target _ (List.mem_of_getElem? hc') hd _ _ rfl
    rw [Option.some.inj hq]
    rfl
  · intro hav s hpass c hc hd msg o hphase
    -- a blocked call is settled at its lookup: from the block answer or from the cache
    have hinv : CacheOk cfg s ∧ ∀ (j : Nat) c, s.calls[j]? = some c → BlockedCallOk cfg c := by
      refine hpass.invariant (I := fun s => CacheOk cfg s ∧
        ∀ (j : Nat) c, s.calls[j]? = some c → BlockedCallOk cfg c) ⟨?_, ?_⟩ ?_
      · intro k en hk
        cases hk
      · intro j c hj
        cases hj
      · intro s e s' ht hi
        refine ⟨cacheOk_step hi.1 ht.step_eq, blockedCallOk_step hi.1 hi.2 ht.step_eq ?_⟩
        intro i he
        subst he
        exact hav s i s' ht
    obtain ⟨j, hj⟩ := List.mem_iff_getElem?.mp hc
    have hok := hinv.2 j c hj (Call.isBlocked_iff.mpr hd)
    rw [hphase] at hok
    exact hok

/-! Concrete runs: one local list that a reload reads, and queries for
`ads.example`. -/

def adsName : Name := ⟨[labelOf "ads", labelOf "example"], true⟩

/-- A query for its address. -/
def adsQuery (id : UInt16) : Message :=
  { id, recursionDesired := true, queries := [⟨adsName, .A, .IN⟩] }

/-- What an upstream says about it. -/
def adsResponse : Message :=
  { messageType := .response
    queries := [⟨adsName, .A, .IN⟩]
    answers := [.fromRdata adsName 300 (.a 0x5DB8D822)] }

/-- One local file of rules. -/
def adsConfig : ResolveConfig := ⟨{}, {}, { paths := ["local".toList] }⟩

/-- A resolver before its first reload. -/
def adsStart : ResolverState :=
  ResolverState.init adsConfig 0 {} (.fromConfig adsConfig.blocklist) none

/-- A reload with no downloads to make, that finds `disk`. -/
def reloadFrom (disk : Disk) : ResolverEvent :=
  .manage .blocklistReload ⟨{ fetch := fun _ => none }, { fetch := fun _ => none }⟩ disk

/-- The name is resolved and cached, then a reload blocks it: the next
query for it, decided `Block`, is answered with the upstream's record. -/
theorem blocked_query_gets_upstream_answer :
    ∃ s, Passes (step .ascii sampleText adsConfig) adsStart
      [.arrive (adsQuery 1) none, .lookup 0, .reply 0 (.ok adsResponse), .insert 0 0,
       reloadFrom sampleDisk, .arrive (adsQuery 2) none, .lookup 1] s ∧
    ∃ c ∈ s.calls, c.decision = some .block ∧
      c.phase = .done ((adsResponse.withTtl 300).setId 2) (some (.upstream (adsQuery 1))) := by
  have hlast : (run (step .ascii sampleText adsConfig) adsStart
      [.arrive (adsQuery 1) none, .lookup 0, .reply 0 (.ok adsResponse), .insert 0 0,
       reloadFrom sampleDisk, .arrive (adsQuery 2) none, .lookup 1]).map (fun s => s.calls[1]?) =
      some (some ⟨adsQuery 2, none, some .block,
        .done ((adsResponse.withTtl 300).setId 2) (some (.upstream (adsQuery 1)))⟩) := by
    decide +kernel
  obtain ⟨s, hs, hc⟩ := Option.map_eq_some_iff.mp hlast
  exact ⟨s, .finish hs, _, List.mem_of_getElem? hc, rfl, rfl⟩

/-! ## Allowed calls -/

section
variable {U : UnicodeCase} {text : LabelText} {cfg : ResolveConfig}
variable {s s' : ResolverState} {e : ResolverEvent}

/-- A call that is not blocked makes no block answer and has none. -/
def AllowedCallOk (c : Call) : Prop :=
  c.isBlocked = false → c.phase ≠ .store ∧ ∀ msg q, c.phase ≠ .done msg (some (.blocked q))

/-- No lookup for a call that is not blocked can find a block answer. -/
def LookupAvoidsBlocked (cfg : ResolveConfig) (s : ResolverState) (i : Nat) : Prop :=
  ∀ c en d, s.calls[i]? = some c → c.decision = some d → d ≠ .block →
    LiveEntry s (c.upstreamQuery cfg) en → en.origin.isBlocked = false

/-- A call that looks at the cache has a question, so it was decided. -/
def LookupDecided (s : ResolverState) : Prop :=
  ∀ (j : Nat) c, s.calls[j]? = some c → c.phase = .lookup → ∃ d, c.decision = some d

theorem lookupDecided_step (h : LookupDecided s) (hs : s.step U text cfg e = some s') :
    LookupDecided s' := by
  refine forall_calls_step h hs ?_ ?_
  · intro query clientIp hp
    unfold newCall at hp ⊢
    cases hq : query.queries.head? with
    | none => rw [hq] at hp; cases hp
    | some q => exact ⟨_, rfl⟩
  · intro j c phase _ _ hmove hp
    have hp : phase = .lookup := hp
    subst hp
    generalize hph : CallPhase.lookup = phase at hmove
    cases hmove with
    | miss _ _ _ => split at hph <;> cases hph
    | _ => cases hph

theorem allowedCallOk_step (hdec : LookupDecided s)
    (h : ∀ (j : Nat) c, s.calls[j]? = some c → AllowedCallOk c)
    (hs : s.step U text cfg e = some s')
    (hav : ∀ i, e = .lookup i → LookupAvoidsBlocked cfg s i) :
    ∀ (j : Nat) c, s'.calls[j]? = some c → AllowedCallOk c := by
  refine forall_calls_step h hs ?_ ?_
  · intro query clientIp _
    unfold newCall
    cases query.queries.head? with
    | none => exact ⟨by simp, by simp⟩
    | some q => exact ⟨by simp, by simp⟩
  · intro j c phase hc hok hmove hb
    have hcb : c.isBlocked = false := hb
    have hbefore := hok hcb
    cases hmove with
    | hit he hp hget =>
        obtain ⟨en, k, ttl, hlive, _, _, rfl, _⟩ := hit_of_get hget
        obtain ⟨d, hd⟩ := hdec j c hc hp
        have hne : d ≠ .block := by
          intro hblock
          rw [Call.isBlocked_iff.mpr (hblock ▸ hd)] at hcb
          cases hcb
        have hnot := hav j he c en d hc hd hne hlive
        refine ⟨by simp, ?_⟩
        intro msg q heq
        injection heq with _ ho
        rw [Option.some.inj ho] at hnot
        cases hnot
    | miss _ _ _ =>
        have hphase : (if c.isBlocked then CallPhase.store else .waiting) = .waiting := by
          rw [hcb]
          rfl
        exact ⟨by simp [hphase], by simp [hphase]⟩
    | stored _ hp => exact absurd hp hbefore.1
    | replied _ _ => exact ⟨by simp, by simp⟩
    | failed _ _ => exact ⟨by simp, by simp⟩
    | inserted _ _ => exact ⟨by simp, by simp⟩
    | cancelled _ _ => exact ⟨by simp, by simp⟩

end

/-- **Allowed queries get no block answer** made for an earlier query, in
every state of a run from an empty cache, exactly when no lookup made for
an allowed or excepted query finds a live block answer under its key. -/
theorem allowed_answers_iff (U : UnicodeCase) (text : LabelText) (cfg : ResolveConfig)
    (now : Nat) (m : Metrics) (b : ReloadableBlocklist) (obs : Option ObservabilityRegistry)
    (es : List ResolverEvent) :
    let start := ResolverState.init cfg now m b obs
    (∀ s, Passes (step U text cfg) start es s → ∀ c ∈ s.calls, ∀ d, c.decision = some d →
      d ≠ .block → ∀ msg o, c.phase = .done msg o → ∀ q, o ≠ some (.blocked q)) ↔
    ∀ s i s', Takes (step U text cfg) start es s (.lookup i) s' →
      LookupAvoidsBlocked cfg s i := by
  intro start
  constructor
  · intro h s i s' ht c en d hc hd hne hlive
    obtain ⟨ttl, hc'⟩ := lookup_hit ht.step_eq hc hlive
    cases ho : en.origin with
    | upstream u => rfl
    | blocked q =>
        refine absurd ?_ (h s' ht.target _ (List.mem_of_getElem? hc') d hd hne _ _ rfl q)
        rw [ho]
  · intro hav s hpass c hc d hd hne msg o hphase q ho
    -- an allowed call gets a block answer from nowhere but the cache
    have hinv : LookupDecided s ∧ ∀ (j : Nat) c, s.calls[j]? = some c → AllowedCallOk c := by
      refine hpass.invariant (I := fun s => LookupDecided s ∧
        ∀ (j : Nat) c, s.calls[j]? = some c → AllowedCallOk c) ⟨?_, ?_⟩ ?_
      · intro j c hj
        cases hj
      · intro j c hj
        cases hj
      · intro s e s' ht hi
        refine ⟨lookupDecided_step hi.1 ht.step_eq, allowedCallOk_step hi.1 hi.2 ht.step_eq ?_⟩
        intro i he
        subst he
        exact hav s i s' ht
    obtain ⟨j, hj⟩ := List.mem_iff_getElem?.mp hc
    have hb : c.isBlocked = false := by
      rw [Bool.eq_false_iff]
      intro hb
      rw [Call.isBlocked_iff.mp hb] at hd
      exact hne (Option.some.inj hd).symm
    exact (hinv.2 j c hj hb).2 msg q (by rw [hphase, ho])

/-- The name is blocked and its block answer cached, then a reload finds the
list empty: the next query for it, decided `Allow`, still gets the block
answer. -/
theorem allowed_query_gets_block_answer :
    ∃ s, Passes (step .ascii sampleText adsConfig) adsStart
      [reloadFrom sampleDisk, .arrive (adsQuery 1) none, .lookup 0, .store 0 0,
       reloadFrom (fun _ => some []), .arrive (adsQuery 2) none, .lookup 1] s ∧
    ∃ c ∈ s.calls, c.decision = some .allow ∧
      c.phase = .done ((makeBlockedResponse (adsQuery 1) adsConfig.blocklist).setId 2)
        (some (.blocked (adsQuery 1))) := by
  have hlast : (run (step .ascii sampleText adsConfig) adsStart
      [reloadFrom sampleDisk, .arrive (adsQuery 1) none, .lookup 0, .store 0 0,
       reloadFrom (fun _ => some []), .arrive (adsQuery 2) none, .lookup 1]).map
        (fun s => s.calls[1]?) =
      some (some ⟨adsQuery 2, none, some .allow,
        .done ((makeBlockedResponse (adsQuery 1) adsConfig.blocklist).setId 2)
          (some (.blocked (adsQuery 1)))⟩) := by
    decide +kernel
  obtain ⟨s, hs, hc⟩ := Option.map_eq_some_iff.mp hlast
  exact ⟨s, .finish hs, _, List.mem_of_getElem? hc, rfl, rfl⟩

/-! ## Which query an answer was given to -/

/-- The two queries agree on all that can change an upstream's answer. -/
structure AgreesUpstream (q q' : Message) : Prop where
  opCode : q.opCode = q'.opCode
  checkingDisabled : q.checkingDisabled = q'.checkingDisabled
  recursionDesired : q.recursionDesired = q'.recursionDesired
  doBit : q.doBit = q'.doBit
  ecs : q.ecsBytes = q'.ecsBytes
  questions : List.Forall₂ Query.Same q.queries q'.queries

section
variable {U : UnicodeCase} {text : LabelText} {cfg : ResolveConfig}
variable {s s' : ResolverState} {e : ResolverEvent}

theorem AgreesUpstream.refl (q : Message) : AgreesUpstream q q :=
  ⟨rfl, rfl, rfl, rfl, rfl, List.forall₂_same.mpr fun _ _ => ⟨BEq.rfl, rfl, rfl⟩⟩

theorem arrived_step {es : List ResolverEvent}
    (h : ∀ (j : Nat) c, s.calls[j]? = some c → .arrive c.query c.clientIp ∈ es)
    (he : e ∈ es) (hs : s.step U text cfg e = some s') :
    ∀ (j : Nat) c, s'.calls[j]? = some c → .arrive c.query c.clientIp ∈ es := by
  intro j c' hj
  rcases step_calls hs hj with hold | ⟨query, clientIp, rfl, rfl⟩ | ⟨c, phase, hc, _, rfl⟩
  · exact h j c' hold
  · unfold newCall
    cases query.queries.head? with
    | none => exact he
    | some q => exact he
  · exact h j c hc

/-- Every call of a run from the start is one of its arrivals. -/
theorem arrived_of_passes {now : Nat} {m : Metrics} {b : ReloadableBlocklist}
    {obs : Option ObservabilityRegistry} {es : List ResolverEvent}
    (hpass : Passes (step U text cfg) (ResolverState.init cfg now m b obs) es s) :
    ∀ (j : Nat) c, s.calls[j]? = some c → .arrive c.query c.clientIp ∈ es := by
  refine hpass.invariant ?_ fun s e s' ht hi => arrived_step hi ht.mem ht.step_eq
  intro j c hj
  cases hj

end

/-- The answer to the first query is cached, and the second gets it. -/
theorem run_two_queries :
    ∃ s, run (step .ascii sampleText adsConfig) adsStart
        [.arrive (adsQuery 1) none, .lookup 0, .reply 0 (.ok adsResponse), .insert 0 0,
         .arrive (adsQuery 2) none, .lookup 1] = some s ∧
      s.calls[1]? = some ⟨adsQuery 2, none, some .allow,
        .done ((adsResponse.withTtl 300).setId 2) (some (.upstream (adsQuery 1)))⟩ := by
  rw [← Option.map_eq_some_iff (f := fun s : ResolverState => s.calls[1]?)]
  decide +kernel

/-- The reply under another transaction ID, as it came or with the TTLs of
a cache hit. -/
inductive FromReply (reply : Message) : Message → Prop
  | fresh (id : UInt16) : FromReply reply (reply.setId id)
  | cached (ttl : UInt32) (id : UInt16) : FromReply reply ((reply.withTtl ttl).setId id)

/-- Every upstream answer in the resolver is made of a reply that was
`Given` for the query it answers. -/
structure RepliesOk (cfg : ResolveConfig) (Given : Message → Message → Prop)
    (s : ResolverState) : Prop where
  received : ∀ (j : Nat) c reply, s.calls[j]? = some c → c.phase = .received reply →
    Given (c.upstreamQuery cfg) reply
  cached : ∀ k en u, s.cache.entries.get? k = some en → en.origin = .upstream u →
    ∃ reply id, Given u reply ∧ en.message = reply.setId id
  returned : ∀ (j : Nat) c msg u, s.calls[j]? = some c →
    c.phase = .done msg (some (.upstream u)) → ∃ reply, Given u reply ∧ FromReply reply msg

section
variable {U : UnicodeCase} {text : LabelText} {cfg : ResolveConfig}
variable {s s' : ResolverState} {e : ResolverEvent} {Given : Message → Message → Prop}

theorem RepliesOk.step (h : RepliesOk cfg Given s) (hs : s.step U text cfg e = some s')
    (hgiven : ∀ (i : Nat) c reply, e = .reply i (.ok reply) → s.calls[i]? = some c →
      Given (c.upstreamQuery cfg) reply) : RepliesOk cfg Given s' where
  received j c' reply hj hp := by
    rcases step_calls hs hj with hold | ⟨query, clientIp, _, rfl⟩ | ⟨c, phase, hc, hmove, rfl⟩
    · exact h.received j c' reply hold hp
    · rcases newCall_phase (U := U) s.blocklist query clientIp with hnew | hnew
      · rw [hnew] at hp
        cases hp
      · rw [hnew] at hp
        cases hp
    · show Given (c.upstreamQuery cfg) reply
      have hp : phase = .received reply := hp
      cases hmove with
      | miss _ _ _ => split at hp <;> cases hp
      | replied he _ =>
          cases hp
          exact hgiven j c reply he hc
      | _ => cases hp
  cached k en u hk ho := by
    rcases step_entries hs hk with hk | ⟨j, c, hc, _, ⟨_, _, hb⟩ | ⟨reply, hp, hm, hu⟩⟩
    · exact h.cached k en u hk ho
    · rw [hb] at ho
      cases ho
    · rw [hu] at ho
      cases ho
      exact ⟨reply, c.query.id, h.received j c reply hc hp, hm⟩
  returned j c' msg u hj hp := by
    rcases step_calls hs hj with hold | ⟨query, clientIp, _, rfl⟩ | ⟨c, phase, hc, hmove, rfl⟩
    · exact h.returned j c' msg u hold hp
    · exact absurd hp (newCall_not_upstream s.blocklist query clientIp msg u)
    · have hp : phase = .done msg (some (.upstream u)) := hp
      cases hmove with
      | hit _ _ hget =>
          obtain ⟨en, k, ttl, _, hen, _, ho, rfl⟩ := hit_of_get hget
          injection hp with hmsg ho'
          rw [Option.some.inj ho'] at ho
          obtain ⟨reply, id, hreply, hm⟩ := h.cached k en u hen ho
          rw [← hmsg, hm]
          exact ⟨reply, hreply, .cached ttl c.query.id⟩
      | miss _ _ _ => split at hp <;> cases hp
      | inserted _ hreceived =>
          cases hp
          exact ⟨_, h.received j c _ hc hreceived, .fresh c.query.id⟩
      | _ => cases hp

/-- The invariant over a run whose every successful reply is `Given`. -/
theorem repliesOk_of_passes {now : Nat} {m : Metrics} {b : ReloadableBlocklist}
    {obs : Option ObservabilityRegistry} {es : List ResolverEvent}
    (hpass : Passes (step U text cfg) (ResolverState.init cfg now m b obs) es s)
    (hgiven : ∀ s i reply s' c,
      Takes (step U text cfg) (ResolverState.init cfg now m b obs) es s
        (.reply i (.ok reply)) s' →
      s.calls[i]? = some c → Given (c.upstreamQuery cfg) reply) : RepliesOk cfg Given s := by
  refine hpass.invariant ⟨?_, ?_, ?_⟩ ?_
  · intro j c reply hj
    cases hj
  · intro k en u hk
    cases hk
  · intro j c msg u hj
    cases hj
  · intro s e s' ht hi
    refine hi.step ht.step_eq ?_
    intro i c reply he hc
    subst he
    exact hgiven s i reply s' c ht hc

end

end Dotdns
