import Dotdns.Server.Origins

/-!
# Server — what an answer says about its query

A client matches a reply by its transaction ID and its question section,
and reads the EDNS section as an answer to its own. Answers are made in
four places: from an upstream's message, from a cached message that was
made for another query, from the block answer and from an error. This
module says what each of them keeps of the query it is returned for, and
what the query that goes upstream may still contain.
-/

namespace Dotdns

open Lib ResolverState

/-- The block answer: what `apply_query_meta` sets, and the records. -/
theorem makeBlockedResponse_meta (query : Message) (config : BlocklistConfig) :
    ∃ code answers nameServers, makeBlockedResponse query config =
      { queryMeta query with responseCode := code, answers, nameServers } := by
  unfold makeBlockedResponse
  cases query.queries.head? with
  | none => exact ⟨_, [], [], rfl⟩
  | some q =>
      cases config.responseMode with
      | nullIp =>
          cases hq : q.queryType with
          | A => exact ⟨_, _, [], by simp only [hq]; rfl⟩
          | AAAA => exact ⟨_, _, [], by simp only [hq]; rfl⟩
          | other code => exact ⟨_, [], _, by simp only [hq]; rfl⟩
      | noData => exact ⟨_, [], _, rfl⟩
      | nxDomain => exact ⟨_, [], _, rfl⟩

@[simp] theorem makeBlockedResponse_id (query : Message) (config : BlocklistConfig) :
    (makeBlockedResponse query config).id = query.id := by
  obtain ⟨_, _, _, heq⟩ := makeBlockedResponse_meta query config
  rw [heq]
  rfl

/-- `apply_query_meta` does not copy the questions. -/
@[simp] theorem makeBlockedResponse_queries (query : Message) (config : BlocklistConfig) :
    (makeBlockedResponse query config).queries = [] := by
  obtain ⟨_, _, _, heq⟩ := makeBlockedResponse_meta query config
  rw [heq]
  rfl

/-! ## The transaction ID -/

section
variable {U : UnicodeCase} {text : LabelText} {cfg : ResolveConfig}
variable {s s' : ResolverState} {e : ResolverEvent}

/-- A call that is over has the ID of its query in its answer. -/
def HasQueryId (c : Call) : Prop := ∀ msg o, c.phase = .done msg o → msg.id = c.query.id

theorem hasQueryId_newCall (b : ReloadableBlocklist) (query : Message)
    (clientIp : Option IpAddr) : HasQueryId (newCall U text b query clientIp) := by
  intro msg o hp
  unfold newCall at hp ⊢
  cases hq : query.queries.head? with
  | none =>
      rw [hq] at hp
      cases hp
      rfl
  | some q =>
      rw [hq] at hp
      cases hp

/-- Every path that returns sets the ID: a hit and an upstream's answer
with `set_id`, an answer made here with `apply_query_meta`. -/
theorem hasQueryId_moves {j : Nat} {c : Call} {phase : CallPhase}
    (h : Moves cfg s e j c phase) : HasQueryId { c with phase } := by
  intro msg o hp
  have hp : phase = .done msg o := hp
  show msg.id = c.query.id
  cases h with
  | hit _ _ _ =>
      cases hp
      rfl
  | miss _ _ _ => split at hp <;> cases hp
  | stored _ _ =>
      cases hp
      exact makeBlockedResponse_id _ _
  | replied _ _ => cases hp
  | failed _ _ =>
      cases hp
      rfl
  | inserted _ _ =>
      cases hp
      rfl
  | cancelled _ _ => cases hp

end

/-- **Answers carry the ID of their query**, in every state of every run of
the resolver, whatever the upstreams reply. -/
theorem answers_carry_query_id (U : UnicodeCase) (text : LabelText) (cfg : ResolveConfig)
    (now : Nat) (m : Metrics) (b : ReloadableBlocklist) (obs : Option ObservabilityRegistry)
    (es : List ResolverEvent) (s : ResolverState)
    (hpass : Passes (step U text cfg) (ResolverState.init cfg now m b obs) es s) :
    ∀ c ∈ s.calls, ∀ msg o, c.phase = .done msg o → msg.id = c.query.id := by
  intro c hc
  have hinv : ∀ (j : Nat) c, s.calls[j]? = some c → HasQueryId c := by
    refine hpass.invariant_of_step ?_ fun s e s' hi hs =>
      forall_calls_step hi hs (hasQueryId_newCall s.blocklist) ?_
    · intro j c hj
      cases hj
    · intro j c phase _ _ hm
      exact hasQueryId_moves hm
  obtain ⟨j, hj⟩ := List.mem_iff_getElem?.mp hc
  exact hinv j c hj

/-- Two queries for one name under different IDs: the answer given to the
first is returned for the second from the cache, with the second's ID. -/
theorem answers_carry_query_id_cached :
    ∃ s, Passes (step .ascii sampleText adsConfig) adsStart
      [.arrive (adsQuery 1) none, .lookup 0, .reply 0 (.ok adsResponse), .insert 0 0,
       .arrive (adsQuery 2) none, .lookup 1] s ∧
    ∃ c ∈ s.calls, c.query = adsQuery 2 ∧
      ∃ msg, c.phase = .done msg (some (.upstream (adsQuery 1))) ∧ msg.id = 2 := by
  obtain ⟨s, hs, hc⟩ := run_two_queries
  exact ⟨s, .finish hs, _, List.mem_of_getElem? hc, rfl, _, rfl,
    answers_carry_query_id .ascii sampleText adsConfig 0 {} _ none _ s (.finish hs) _
      (List.mem_of_getElem? hc) _ _ rfl⟩

/-! ## The question section -/

section
variable {U : UnicodeCase} {text : LabelText} {cfg : ResolveConfig}
variable {s s' : ResolverState} {e : ResolverEvent}

/-- A call that is still on its way has a question. -/
def HasQuestion (c : Call) : Prop := (∀ msg o, c.phase ≠ .done msg o) → c.query.queries ≠ []

theorem hasQuestion_newCall (b : ReloadableBlocklist) (query : Message)
    (clientIp : Option IpAddr) : HasQuestion (newCall U text b query clientIp) := by
  intro hp hnil
  unfold newCall at hp hnil
  cases hq : query.queries.head? with
  | none => exact hp _ _ (by rw [hq])
  | some q =>
      rw [hq] at hnil
      have hnil : query.queries = [] := hnil
      rw [hnil] at hq
      cases hq

theorem ResolverState.Moves.not_done {j : Nat} {c : Call} {phase : CallPhase}
    (h : Moves cfg s e j c phase) : ∀ msg o, c.phase ≠ .done msg o := by
  intro msg o hp
  cases h with
  | hit _ hp' _ => rw [hp'] at hp; cases hp
  | miss _ hp' _ => rw [hp'] at hp; cases hp
  | stored _ hp' => rw [hp'] at hp; cases hp
  | replied _ hp' => rw [hp'] at hp; cases hp
  | failed _ hp' => rw [hp'] at hp; cases hp
  | inserted _ hp' => rw [hp'] at hp; cases hp
  | cancelled _ hp' => rw [hp'] at hp; cases hp

theorem hasQuestion_step (h : ∀ (j : Nat) c, s.calls[j]? = some c → HasQuestion c)
    (hs : s.step U text cfg e = some s') :
    ∀ (j : Nat) c, s'.calls[j]? = some c → HasQuestion c :=
  forall_calls_step h hs (hasQuestion_newCall s.blocklist) fun _ _ _ _ hc hm _ =>
    hc hm.not_done

/-- The answer, if there is one, repeats the questions. -/
def EchoesQuestion (c : Call) : Prop :=
  ∀ msg o, c.phase = .done msg o → c.query.queries ≠ [] → msg.queries = c.query.queries

/-- The step returns no answer made here, and no cached message but an
upstream's answer to the same questions, letter for letter. -/
def KeepsQuestion (cfg : ResolveConfig) (s : ResolverState) : ResolverEvent → Prop
  | .store _ _ => False
  | .reply _ (.error _) => False
  | .lookup i => ∀ c en, s.calls[i]? = some c → LiveEntry s (c.upstreamQuery cfg) en →
      ∃ u, en.origin = .upstream u ∧ u.queries = c.query.queries
  | _ => True

/-- The reply has the questions of the query it was asked. -/
def EchoedReply (u reply : Message) : Prop := reply.queries = u.queries

/-- The questions in a message of this origin. -/
def Origin.questions : Origin → List Query
  | .blocked _ => []
  | .upstream u => u.queries

theorem cached_queries (hcache : CacheOk cfg s) (hrep : RepliesOk cfg EchoedReply s)
    {k : CacheKey} {en : CacheEntry Origin} (hk : s.cache.entries.get? k = some en) :
    en.message.queries = en.origin.questions := by
  have hok := hcache k en hk
  unfold EntryOk at hok
  cases ho : en.origin with
  | blocked q =>
      rw [ho] at hok
      rw [hok.2]
      exact makeBlockedResponse_queries q cfg.blocklist
  | upstream u =>
      obtain ⟨reply, id, hreply, hm⟩ := hrep.cached k en u hk ho
      rw [hm]
      exact hreply

theorem echoesQuestion_newCall (b : ReloadableBlocklist) (query : Message)
    (clientIp : Option IpAddr) : EchoesQuestion (newCall U text b query clientIp) := by
  intro msg o hp hne
  unfold newCall at hp hne
  cases hq : query.queries.head? with
  | none =>
      rw [hq] at hne
      exact absurd (List.head?_eq_none_iff.mp hq) hne
  | some q =>
      rw [hq] at hp
      cases hp

theorem echoesQuestion_moves (hcache : CacheOk cfg s) (hrep : RepliesOk cfg EchoedReply s)
    (hkeep : KeepsQuestion cfg s e) {j : Nat} {c : Call} {phase : CallPhase}
    (hc : s.calls[j]? = some c) (h : Moves cfg s e j c phase) :
    EchoesQuestion { c with phase } := by
  intro msg o hp _
  have hp : phase = .done msg o := hp
  show msg.queries = c.query.queries
  cases h with
  | hit he _ hget =>
      obtain ⟨en, k, ttl, hlive, hen, _, _, rfl⟩ := hit_of_get hget
      subst he
      obtain ⟨u, ho, hu⟩ := hkeep c en hc hlive
      have hm := cached_queries hcache hrep hen
      rw [ho] at hm
      cases hp
      exact hm.trans hu
  | miss _ _ _ => split at hp <;> cases hp
  | stored he _ =>
      subst he
      exact hkeep.elim
  | replied _ _ => cases hp
  | failed he _ =>
      subst he
      exact hkeep.elim
  | inserted _ hreceived =>
      have hreply := hrep.received j c _ hc hreceived
      cases hp
      exact hreply.trans (queryWithEcs_queries _ _ _)
  | cancelled _ _ => cases hp

/-- A step that leaves every answer with its questions is one that
`KeepsQuestion`. -/
theorem keepsQuestion_of_echoes (hcache : CacheOk cfg s) (hrep : RepliesOk cfg EchoedReply s)
    (hask : ∀ (j : Nat) c, s.calls[j]? = some c → HasQuestion c)
    (hs : s.step U text cfg e = some s')
    (hecho : ∀ (j : Nat) c, s'.calls[j]? = some c → EchoesQuestion c) :
    KeepsQuestion cfg s e := by
  -- a call that a step finishes with no questions in its answer had some
  have hempty : ∀ {i : Nat} {c : Call} {msg : Message} {o : Option Origin},
      s.calls[i]? = some c → (∀ msg o, c.phase ≠ .done msg o) →
      s'.calls[i]? = some { c with phase := .done msg o } → msg.queries ≠ [] := by
    intro i c msg o hc hnot hc' hnil
    have hne := hask i c hc hnot
    exact hne ((hecho i _ hc' msg o rfl hne).symm.trans hnil)
  cases step_cases hs with
  | @store i c pick hi hp =>
      exact hempty hi (by simp [hp])
        (getElem?_modify_eq_some.mpr (.inr ⟨rfl, c, hi, rfl⟩))
        (makeBlockedResponse_queries _ _)
  | @failed i c err hi hp =>
      exact hempty hi (by simp [hp])
        (getElem?_modify_eq_some.mpr (.inr ⟨rfl, c, hi, rfl⟩)) rfl
  | @lookup i c hi hp =>
      intro c' en hc hlive
      rw [hi] at hc
      cases hc
      obtain ⟨ttl, hdone⟩ := lookup_hit hs hi hlive
      obtain ⟨k, _, hen⟩ := Option.bind_eq_some_iff.mp hlive.1
      have hm := cached_queries hcache hrep hen
      have hne := hempty hi (by simp [hp]) hdone
      have heq := hecho i _ hdone _ _ rfl (hask i c hi (by simp [hp]))
      cases ho : en.origin with
      | blocked q =>
          rw [ho] at hm
          exact absurd hm hne
      | upstream u =>
          rw [ho] at hm
          exact ⟨u, rfl, hm.symm.trans heq⟩
  | _ => trivial

end

/-- **Answers echo the question section**, in every state of a run whose
upstreams echo it, exactly when the run makes no block answer, gets no
error from the upstreams, and takes from the cache only what an upstream
answered to the same questions in the same letter case. -/
theorem answers_echo_question_iff (U : UnicodeCase) (text : LabelText) (cfg : ResolveConfig)
    (now : Nat) (m : Metrics) (b : ReloadableBlocklist) (obs : Option ObservabilityRegistry)
    (es : List ResolverEvent)
    (hreplies : ∀ s i reply s' c,
      Takes (step U text cfg) (ResolverState.init cfg now m b obs) es s
        (.reply i (.ok reply)) s' →
      s.calls[i]? = some c → reply.queries = (c.upstreamQuery cfg).queries) :
    let start := ResolverState.init cfg now m b obs
    (∀ s, Passes (step U text cfg) start es s → ∀ c ∈ s.calls, c.query.queries ≠ [] →
      ∀ msg o, c.phase = .done msg o → msg.queries = c.query.queries) ↔
    ∀ s e s', Takes (step U text cfg) start es s e s' → KeepsQuestion cfg s e := by
  intro start
  -- an entry is of the key it is under, and what an upstream said echoes the question
  have hcache : ∀ s, Passes (step U text cfg) start es s → CacheOk cfg s := by
    intro s hpass
    refine hpass.invariant_of_step ?_ fun s e s' hi hs => cacheOk_step hi hs
    intro k en hk
    cases hk
  have hrep : ∀ s, Passes (step U text cfg) start es s → RepliesOk cfg EchoedReply s :=
    fun s hpass => repliesOk_of_passes hpass hreplies
  constructor
  · intro h s e s' ht
    have hask : ∀ (j : Nat) c, s.calls[j]? = some c → HasQuestion c := by
      refine ht.source.invariant_of_step ?_ fun s e s' hi hs => hasQuestion_step hi hs
      intro j c hj
      cases hj
    refine keepsQuestion_of_echoes (hcache s ht.source) (hrep s ht.source) hask ht.step_eq ?_
    intro j c hj msg o hp hne
    exact h s' ht.target c (List.mem_of_getElem? hj) hne msg o hp
  · intro hkeep s hpass c hc hne msg o hp
    have hinv : ∀ (j : Nat) c, s.calls[j]? = some c → EchoesQuestion c := by
      refine hpass.invariant ?_ fun s e s' ht hi =>
        forall_calls_step hi ht.step_eq (echoesQuestion_newCall s.blocklist) ?_
      · intro j c hj
        cases hj
      · intro j c phase hc _ hm
        exact echoesQuestion_moves (hcache s ht.source) (hrep s ht.source)
          (hkeep s e s' ht) hc hm
    obtain ⟨j, hj⟩ := List.mem_iff_getElem?.mp hc
    exact hinv j c hj msg o hp hne

/-- One query and the upstream's answer to it. -/
theorem answers_echo_question_forwarded :
    ∃ s, Passes (step .ascii sampleText adsConfig) adsStart
      [.arrive (adsQuery 1) none, .lookup 0, .reply 0 (.ok adsResponse), .insert 0 0] s ∧
    ∃ c ∈ s.calls, c.query = adsQuery 1 ∧ ∃ msg o, c.phase = .done msg o ∧
      msg.queries = [⟨adsName, .A, .IN⟩] := by
  have hlast : (run (step .ascii sampleText adsConfig) adsStart
      [.arrive (adsQuery 1) none, .lookup 0, .reply 0 (.ok adsResponse), .insert 0 0]).map
        (fun s => s.calls[0]?) =
      some (some ⟨adsQuery 1, none, some .allow, .done (adsResponse.setId 1)
        (some (.upstream (adsQuery 1)))⟩) := by
    decide +kernel
  obtain ⟨s, hs, hc⟩ := Option.map_eq_some_iff.mp hlast
  refine ⟨s, .finish hs, _, List.mem_of_getElem? hc, rfl, _, _, rfl,
    (answers_echo_question_iff .ascii sampleText adsConfig 0 {} _ none _ ?_).mpr ?_ s
      (.finish hs) _ (List.mem_of_getElem? hc) (by simp [adsQuery]) _ _ rfl⟩
  · intro s i reply s' c ht hi
    have harr := arrived_of_passes ht.source i c hi
    have hreply := ht.mem
    simp only [List.mem_cons, ResolverEvent.arrive.injEq, ResolverEvent.reply.injEq,
      Except.ok.injEq, reduceCtorEq, List.not_mem_nil, false_or, or_false] at harr hreply
    rw [hreply.2, Call.upstreamQuery, queryWithEcs_queries, harr.1]
    rfl
  · intro s e s' ht
    -- the only look at the cache comes when nothing is stored yet
    rcases takes_cons.mp ht with ⟨_, rfl, _⟩ | ⟨s₁, h₁, ht⟩
    · trivial
    rcases takes_cons.mp ht with ⟨rfl, rfl, _⟩ | ⟨s₂, _, ht⟩
    · cases h₁
      intro c en _ hlive
      obtain ⟨k, _, hen⟩ := Option.bind_eq_some_iff.mp hlive.1
      cases hen
    have hmem := ht.mem
    simp only [List.mem_cons, List.not_mem_nil, or_false] at hmem
    rcases hmem with rfl | rfl <;> trivial

/-- A blocked query with one question gets an answer with none. -/
theorem blocked_answer_has_no_question :
    ∃ s, Passes (step .ascii sampleText adsConfig) adsStart
      [reloadFrom sampleDisk, .arrive (adsQuery 1) none, .lookup 0, .store 0 0] s ∧
    ∃ c ∈ s.calls, c.query = adsQuery 1 ∧
      ∃ msg o, c.phase = .done msg o ∧ msg.queries = [] ∧ c.query.queries ≠ [] := by
  have hlast : (run (step .ascii sampleText adsConfig) adsStart
      [reloadFrom sampleDisk, .arrive (adsQuery 1) none, .lookup 0, .store 0 0]).map
        (fun s => s.calls[0]?) =
      some (some ⟨adsQuery 1, none, some .block,
        .done (makeBlockedResponse (adsQuery 1) adsConfig.blocklist)
          (some (.blocked (adsQuery 1)))⟩) := by
    decide +kernel
  obtain ⟨s, hs, hc⟩ := Option.map_eq_some_iff.mp hlast
  exact ⟨s, .finish hs, _, List.mem_of_getElem? hc, rfl, _, _, rfl, rfl, by simp [adsQuery]⟩

/-! ## Cached block answers -/

/-- Equal in everything but the TTLs of the records. -/
def Message.EqualButTtl (m m' : Message) : Prop := m.withTtl 0 = m'.withTtl 0

/-- What the block answers of two queries with one cache key can differ in. -/
structure MetaAgrees (q q' : Message) : Prop where
  opCode : q.opCode = q'.opCode
  edns : q.edns = q'.edns
  owner : q.queries.head?.map Query.name = q'.queries.head?.map Query.name

theorem Message.withTtl_withTtl (m : Message) (ttl ttl' : UInt32) :
    (m.withTtl ttl).withTtl ttl' = m.withTtl ttl' := by
  have hset : ∀ rs : List Record,
      (rs.map (Record.setTtl ttl)).map (Record.setTtl ttl') = rs.map (Record.setTtl ttl') := by
    intro rs
    rw [List.map_map]
    rfl
  simp only [Message.withTtl, hset]

/-- Replayed under the ID of `query'`, the block answer for `query` is the
one for `query'` exactly when these agree. -/
theorem replayed_equalButTtl_iff {query query' : Message} {q q' : Query}
    (hq : query.queries.head? = some q) (hq' : query'.queries.head? = some q')
    (htype : q.queryType = q'.queryType)
    (hrd : query.recursionDesired = query'.recursionDesired) (config : BlocklistConfig)
    (ttl : UInt32) :
    Message.EqualButTtl (((makeBlockedResponse query config).withTtl ttl).setId query'.id)
      (makeBlockedResponse query' config) ↔ MetaAgrees query query' := by
  have hagree : MetaAgrees query query' ↔
      query.opCode = query'.opCode ∧ query.edns = query'.edns ∧ q.name = q'.name := by
    constructor
    · intro h
      exact ⟨h.opCode, h.edns, by simpa [hq, hq'] using h.owner⟩
    · intro h
      exact ⟨h.1, h.2.1, by simp [hq, hq', h.2.2]⟩
  have hswap : ((makeBlockedResponse query config).withTtl ttl).setId query'.id =
      ((makeBlockedResponse query config).setId query'.id).withTtl ttl := rfl
  rw [hagree, Message.EqualButTtl, hswap, Message.withTtl_withTtl]
  -- both answers have their one record in the same section
  unfold makeBlockedResponse
  rw [hq, hq']
  dsimp only
  rw [htype]
  cases config.responseMode with
  | nullIp =>
      cases q'.queryType <;>
        simp [Message.withTtl, Message.setId, queryMeta, blockedSoa, Record.fromRdata,
          Record.setTtl, hrd, and_comm]
  | noData =>
      simp [Message.withTtl, Message.setId, queryMeta, blockedSoa, Record.fromRdata,
        Record.setTtl, hrd, and_comm]
  | nxDomain =>
      simp [Message.withTtl, Message.setId, queryMeta, blockedSoa, Record.fromRdata,
        Record.setTtl, hrd, and_comm]

section
variable {U : UnicodeCase} {text : LabelText} {cfg : ResolveConfig}
variable {s s' : ResolverState}

/-- A lookup that ends its call with a message found it in the cache. -/
theorem lookup_done {i : Nat} (hs : s.step U text cfg (.lookup i) = some s') {c c' : Call}
    (hc : s.calls[i]? = some c) (hc' : s'.calls[i]? = some c') {msg : Message} {o : Origin}
    (hp : c'.phase = .done msg (some o)) :
    ∃ en k ttl, LiveEntry s (c.upstreamQuery cfg) en ∧ s.cache.entries.get? k = some en ∧
      HasKey (c.upstreamQuery cfg) k ∧ en.origin = o ∧
      msg = (en.message.withTtl ttl).setId c.query.id := by
  obtain ⟨c₀, hc₀, _, hafter⟩ := calls_lookup hs
  rw [hc] at hc₀
  cases hc₀
  rw [hc', lookedUp] at hafter
  cases hget : (s.cache.get s.metrics s.now (c.upstreamQuery cfg)).1 with
  | none =>
      rw [hget] at hafter
      cases hafter
      dsimp only at hp
      split at hp <;> cases hp
  | some found =>
      obtain ⟨cached, origin⟩ := found
      rw [hget] at hafter
      cases hafter
      cases hp
      obtain ⟨en, k, ttl, hlive, hen, hk, ho, rfl⟩ := hit_of_get hget
      exact ⟨en, k, ttl, hlive, hen, hk, ho, rfl⟩

end

/-- **A cached block answer is the query's own**, TTLs aside, exactly when
the query it was made for has the same opcode, the same EDNS section and
the same letters in its name. -/
theorem cached_block_answer_iff (U : UnicodeCase) (text : LabelText) (cfg : ResolveConfig)
    (now : Nat) (m : Metrics) (b : ReloadableBlocklist) (obs : Option ObservabilityRegistry)
    (es : List ResolverEvent) (s s' : ResolverState) (i : Nat) (c : Call) (msg q₁ : Message)
    (ht : Takes (step U text cfg) (ResolverState.init cfg now m b obs) es s (.lookup i) s')
    (hc : s.calls[i]? = some c)
    (hc' : s'.calls[i]? = some { c with phase := .done msg (some (.blocked q₁)) }) :
    Message.EqualButTtl msg (makeBlockedResponse c.query cfg.blocklist) ↔
      MetaAgrees q₁ c.query := by
  have hcache : CacheOk cfg s := by
    refine ht.source.invariant_of_step ?_ fun s e s' hi hs => cacheOk_step hi hs
    intro k en hk
    cases hk
  obtain ⟨en, k, ttl, _, hen, hk, ho, rfl⟩ := lookup_done ht.step_eq hc hc' rfl
  have hok := hcache k en hen
  unfold EntryOk at hok
  rw [ho] at hok
  obtain ⟨⟨clientIp, hq₁⟩, hm⟩ := hok
  -- one key: the same type and the same RD flag
  obtain ⟨a, ha, _, hatype, _, hard, _⟩ := hasKey_fields hq₁
  obtain ⟨a', ha', _, hatype', _, hard', _⟩ := hasKey_fields hk
  rw [queryWithEcs_queries] at ha
  rw [queryWithEcs_recursionDesired] at hard
  rw [Call.upstreamQuery, queryWithEcs_queries] at ha'
  rw [Call.upstreamQuery, queryWithEcs_recursionDesired] at hard'
  rw [hm]
  exact replayed_equalButTtl_iff ha ha' (hatype.trans hatype'.symm) (hard.trans hard'.symm) _ ttl

/-- Two plain queries for a blocked name. -/
theorem cached_block_answer_plain :
    ∃ s s', Takes (step .ascii sampleText adsConfig) adsStart
      [reloadFrom sampleDisk, .arrive (adsQuery 1) none, .lookup 0, .store 0 0,
       .arrive (adsQuery 2) none, .lookup 1] s (.lookup 1) s' ∧
    ∃ c msg, s'.calls[1]? = some c ∧ c.phase = .done msg (some (.blocked (adsQuery 1))) ∧
      Message.EqualButTtl msg (makeBlockedResponse (adsQuery 2) adsConfig.blocklist) := by
  have hlast : ((run (step .ascii sampleText adsConfig) adsStart
      [reloadFrom sampleDisk, .arrive (adsQuery 1) none, .lookup 0, .store 0 0,
       .arrive (adsQuery 2) none]).bind fun s =>
        (step .ascii sampleText adsConfig s (.lookup 1)).map fun s' =>
          (s.calls[1]?, s'.calls[1]?)) =
      some (some ⟨adsQuery 2, none, some .block, .lookup⟩,
        some ⟨adsQuery 2, none, some .block,
          .done ((makeBlockedResponse (adsQuery 1) adsConfig.blocklist).setId 2)
            (some (.blocked (adsQuery 1)))⟩) := by
    decide +kernel
  obtain ⟨s, hs, hlast⟩ := Option.bind_eq_some_iff.mp hlast
  obtain ⟨s', hs', heq⟩ := Option.map_eq_some_iff.mp hlast
  obtain ⟨hc, hc'⟩ := Prod.mk.inj heq
  have ht := Takes.last hs hs'
  exact ⟨s, s', ht, _, _, hc', rfl, (cached_block_answer_iff .ascii sampleText adsConfig 0 {} _
    none _ s s' 1 _ _ _ ht hc hc').mpr ⟨rfl, rfl, rfl⟩⟩

/-- The query with a DNS cookie. -/
def cookieQuery (id : UInt16) : Message :=
  { adsQuery id with edns := some { options := [.unknown 10 [1, 2, 3, 4, 5, 6, 7, 8]] } }

/-- A block answer made for a client that sent a cookie is returned, cookie
and all, to one that sent no EDNS section. -/
theorem cached_block_answer_leaks_cookie :
    ∃ s s', Takes (step .ascii sampleText adsConfig) adsStart
      [reloadFrom sampleDisk, .arrive (cookieQuery 1) none, .lookup 0, .store 0 0,
       .arrive (adsQuery 2) none, .lookup 1] s (.lookup 1) s' ∧
    ∃ c msg, s'.calls[1]? = some c ∧ c.query = adsQuery 2 ∧ c.decision = some .block ∧
      c.phase = .done msg (some (.blocked (cookieQuery 1))) ∧
      msg.edns = (cookieQuery 1).edns ∧
      ¬ Message.EqualButTtl msg (makeBlockedResponse (adsQuery 2) adsConfig.blocklist) := by
  have hlast : ((run (step .ascii sampleText adsConfig) adsStart
      [reloadFrom sampleDisk, .arrive (cookieQuery 1) none, .lookup 0, .store 0 0,
       .arrive (adsQuery 2) none]).bind fun s =>
        (step .ascii sampleText adsConfig s (.lookup 1)).map fun s' => s'.calls[1]?) =
      some (some ⟨adsQuery 2, none, some .block,
        .done ((makeBlockedResponse (cookieQuery 1) adsConfig.blocklist).setId 2)
          (some (.blocked (cookieQuery 1)))⟩) := by
    decide +kernel
  obtain ⟨s, hs, hlast⟩ := Option.bind_eq_some_iff.mp hlast
  obtain ⟨s', hs', hc'⟩ := Option.map_eq_some_iff.mp hlast
  refine ⟨s, s', .last hs hs', _, _, hc', rfl, rfl, rfl, rfl, ?_⟩
  intro heq
  have hedns := congrArg Message.edns heq
  cases hedns

/-! ## What goes upstream

The decision is taken on the first question, and what is handed to
`pending.query` on a miss is the whole message. A ghost list keeps, for
every call, the blocklist it was decided by. -/

/-- The resolver, and the rules each call was decided by. -/
structure Decided where
  state : ResolverState
  rules : List ReloadableBlocklist

/-- The rules call number `rules.length` is decided by, if it arrives now. -/
def rulesAfter (d : Decided) : ResolverEvent → List ReloadableBlocklist
  | .arrive _ _ => d.rules ++ [d.state.blocklist]
  | _ => d.rules

/-- A step of the resolver, noted. -/
def Decided.step (U : UnicodeCase) (text : LabelText) (cfg : ResolveConfig) (d : Decided)
    (e : ResolverEvent) : Option Decided :=
  (d.state.step U text cfg e).map fun s' => ⟨s', rulesAfter d e⟩

/-- The ghost list changes no run. -/
theorem run_decided (U : UnicodeCase) (text : LabelText) (cfg : ResolveConfig) (d : Decided)
    (es : List ResolverEvent) :
    (run (Decided.step U text cfg) d es).map Decided.state =
      run (step U text cfg) d.state es := by
  induction es generalizing d with
  | nil => rfl
  | cons e es ih =>
      rw [run_cons, run_cons, Decided.step]
      cases hs : d.state.step U text cfg e with
      | none => rfl
      | some s' => exact ih ⟨s', rulesAfter d e⟩

section
variable {U : UnicodeCase} {text : LabelText} {cfg : ResolveConfig} {e : ResolverEvent}

/-- No question has a name that `b` blocks. -/
def AsksNothingBlocked (U : UnicodeCase) (text : LabelText) (b : ReloadableBlocklist)
    (questions : List Query) : Prop :=
  ∀ q ∈ questions, b.decide U (queryDomain text q.name) ≠ .block

/-- Every call was decided by its rules, on its first question. -/
structure DecidedOk (U : UnicodeCase) (text : LabelText) (d : Decided) : Prop where
  length : d.rules.length = d.state.calls.length
  decision : ∀ (j : Nat) c b, d.state.calls[j]? = some c → d.rules[j]? = some b →
    c.decision = c.query.queries.head?.map fun q => b.decide U (queryDomain text q.name)

theorem newCall_query (b : ReloadableBlocklist) (query : Message) (clientIp : Option IpAddr) :
    (newCall U text b query clientIp).query = query := by
  unfold newCall
  cases query.queries.head? <;> rfl

theorem newCall_decision (b : ReloadableBlocklist) (query : Message) (clientIp : Option IpAddr) :
    (newCall U text b query clientIp).decision =
      query.queries.head?.map fun q => b.decide U (queryDomain text q.name) := by
  unfold newCall
  cases query.queries.head? <;> rfl

/-- Calls come only by arriving. -/
theorem length_calls_step {s s' : ResolverState} (hs : s.step U text cfg e = some s')
    (hnot : ∀ query clientIp, e ≠ .arrive query clientIp) :
    s'.calls.length = s.calls.length := by
  cases step_cases hs with
  | arrive query clientIp => exact absurd rfl (hnot query clientIp)
  | lookup _ _ =>
      unfold lookup
      split <;> simp
  | store _ _ _ => simp [finish]
  | replied _ _ _ => simp [setPhase]
  | failed _ _ _ => simp [setPhase]
  | insert _ _ _ => simp [finish]
  | cancel _ _ => simp [setPhase]
  | manage req io disk => cases req <;> rfl
  | refresh io disk _ _ => rfl
  | tick elapsed => rfl

theorem decidedOk_arrive {d : Decided} (h : DecidedOk U text d) (query : Message)
    (clientIp : Option IpAddr) :
    DecidedOk U text ⟨d.state.arrive U text query clientIp, d.rules ++ [d.state.blocklist]⟩ where
  length := by
    dsimp only
    rw [calls_arrive, List.length_append, List.length_append, h.length]
    rfl
  decision j c b hj hb := by
    dsimp only at hj hb
    rw [calls_arrive] at hj
    have hlen := h.length
    rcases getElem?_concat_eq_some.mp hb with hb | ⟨hb, rfl⟩
    · have hlt := (List.getElem?_eq_some_iff.mp hb).1
      rcases getElem?_concat_eq_some.mp hj with hj | ⟨hj, _⟩
      · exact h.decision j c b hj hb
      · omega
    · rcases getElem?_concat_eq_some.mp hj with hj | ⟨_, rfl⟩
      · have hlt := (List.getElem?_eq_some_iff.mp hj).1
        omega
      · rw [newCall_decision, newCall_query]

theorem decidedOk_step {d d' : Decided} (h : DecidedOk U text d)
    (hs : d.step U text cfg e = some d') : DecidedOk U text d' := by
  obtain ⟨s', hs', rfl⟩ := Option.map_eq_some_iff.mp hs
  by_cases harr : ∃ query clientIp, e = .arrive query clientIp
  · obtain ⟨query, clientIp, rfl⟩ := harr
    cases hs'
    exact decidedOk_arrive h query clientIp
  · have hnot : ∀ query clientIp, e ≠ .arrive query clientIp :=
      fun query clientIp he => harr ⟨query, clientIp, he⟩
    have hrules : rulesAfter d e = d.rules := by
      cases e with
      | arrive query clientIp => exact absurd rfl (hnot query clientIp)
      | _ => rfl
    rw [hrules]
    refine ⟨h.length.trans (length_calls_step hs' hnot).symm, ?_⟩
    intro j c' b hj hb
    rcases step_calls hs' hj with hold | ⟨query, clientIp, he, _⟩ | ⟨c, phase, hc, _, rfl⟩
    · exact h.decision j c' b hold hb
    · exact absurd he (hnot query clientIp)
    · exact h.decision j c b hc hb

theorem asksNothingBlocked_split {b : ReloadableBlocklist} {questions : List Query} :
    AsksNothingBlocked U text b questions ↔
      AsksNothingBlocked U text b (questions.take 1) ∧
        AsksNothingBlocked U text b (questions.drop 1) := by
  unfold AsksNothingBlocked
  conv_lhs => rw [← List.take_append_drop 1 questions]
  simp only [List.mem_append, or_imp, forall_and]

/-- The decision says whether the first question is blocked. -/
theorem asksNothingBlocked_first {c : Call} {b : ReloadableBlocklist}
    (h : c.decision = c.query.queries.head?.map fun q => b.decide U (queryDomain text q.name)) :
    AsksNothingBlocked U text b (c.query.queries.take 1) ↔ c.isBlocked = false := by
  rw [← Bool.not_eq_true, Call.isBlocked_iff, h]
  cases c.query.queries with
  | nil => simp [AsksNothingBlocked]
  | cons q qs => simp [AsksNothingBlocked]

/-- A call that a lookup leaves waiting missed, and is not blocked. -/
theorem lookup_waiting {s s' : ResolverState} {i : Nat}
    (hs : s.step U text cfg (.lookup i) = some s') {c' : Call} (hc' : s'.calls[i]? = some c')
    (hp : c'.phase = .waiting) :
    ∃ c, s.calls[i]? = some c ∧ c.isBlocked = false ∧
      (s.cache.get s.metrics s.now (c.upstreamQuery cfg)).1 = none ∧
      c' = { c with phase := .waiting } := by
  obtain ⟨c, hc, _, hafter⟩ := calls_lookup hs
  rw [hc', lookedUp] at hafter
  cases hget : (s.cache.get s.metrics s.now (c.upstreamQuery cfg)).1 with
  | some found =>
      rw [hget] at hafter
      cases hafter
      cases hp
  | none =>
      rw [hget] at hafter
      cases hb : c.isBlocked with
      | true =>
          rw [hb] at hafter
          cases hafter
          cases hp
      | false =>
          rw [hb] at hafter
          exact ⟨c, hc, hb, hget, Option.some.inj hafter⟩

theorem lookup_miss {s s' : ResolverState} {i : Nat}
    (hs : s.step U text cfg (.lookup i) = some s') {c : Call} (hc : s.calls[i]? = some c)
    (hb : c.isBlocked = false)
    (hget : (s.cache.get s.metrics s.now (c.upstreamQuery cfg)).1 = none) :
    s'.calls[i]? = some { c with phase := .waiting } := by
  obtain ⟨c₀, hc₀, _, hafter⟩ := calls_lookup hs
  rw [hc] at hc₀
  cases hc₀
  rw [hafter, lookedUp, hget, hb]
  rfl

end

/-- The message that call `i` sends upstream when its lookup misses asks for
nothing blocked after its first question, if that is not blocked itself. -/
def LaterQuestionsOk (U : UnicodeCase) (text : LabelText) (cfg : ResolveConfig) (d : Decided)
    (i : Nat) : Prop :=
  ∀ c b, d.state.calls[i]? = some c → d.rules[i]? = some b →
    (d.state.cache.get d.state.metrics d.state.now (c.upstreamQuery cfg)).1 = none →
    AsksNothingBlocked U text b (c.query.queries.take 1) →
    AsksNothingBlocked U text b (c.query.queries.drop 1)

/-- **Nothing blocked goes upstream**, in a run from an empty cache, exactly
when no query that misses the cache has a blocked question behind a first
one that is not. -/
theorem forwarded_questions_iff (U : UnicodeCase) (text : LabelText) (cfg : ResolveConfig)
    (now : Nat) (m : Metrics) (b : ReloadableBlocklist) (obs : Option ObservabilityRegistry)
    (es : List ResolverEvent) :
    let start : Decided := ⟨ResolverState.init cfg now m b obs, []⟩
    (∀ d i d' c, Takes (Decided.step U text cfg) start es d (.lookup i) d' →
      d'.state.calls[i]? = some c → c.phase = .waiting →
      ∃ b, d.rules[i]? = some b ∧ AsksNothingBlocked U text b (c.upstreamQuery cfg).queries) ↔
    ∀ d i d', Takes (Decided.step U text cfg) start es d (.lookup i) d' →
      LaterQuestionsOk U text cfg d i := by
  intro start
  -- each call is decided once, by its first question
  have hok : ∀ d, Passes (Decided.step U text cfg) start es d → DecidedOk U text d := by
    intro d hpass
    refine hpass.invariant_of_step ⟨rfl, ?_⟩ fun d e d' hi hs => decidedOk_step hi hs
    intro j c b hj
    cases hj
  constructor
  · intro h d i d' ht c b hc hb hget hfirst
    obtain ⟨s', hs', rfl⟩ := Option.map_eq_some_iff.mp ht.step_eq
    have hdec := (hok d ht.source).decision i c b hc hb
    have hc' := lookup_miss hs' hc ((asksNothingBlocked_first hdec).mp hfirst) hget
    obtain ⟨b', hb', hnone⟩ := h d i _ _ ht hc' rfl
    rw [hb] at hb'
    cases hb'
    rw [Call.upstreamQuery, queryWithEcs_queries] at hnone
    exact (asksNothingBlocked_split.mp hnone).2
  · intro h d i d' c' ht hc' hp
    obtain ⟨s', hs', rfl⟩ := Option.map_eq_some_iff.mp ht.step_eq
    obtain ⟨c, hc, hb, hget, rfl⟩ := lookup_waiting hs' hc' hp
    have hlt : i < d.rules.length := by
      rw [(hok d ht.source).length]
      exact (List.getElem?_eq_some_iff.mp hc).1
    have hrules : d.rules[i]? = some d.rules[i] := List.getElem?_eq_getElem hlt
    have hfirst := (asksNothingBlocked_first
      ((hok d ht.source).decision i c _ hc hrules)).mpr hb
    refine ⟨_, hrules, ?_⟩
    rw [Call.upstreamQuery, queryWithEcs_queries]
    exact asksNothingBlocked_split.mpr ⟨hfirst, h d i _ ht c _ hc hrules hget hfirst⟩

/-- A query for an allowed name with a second question for `ads.example`. -/
def smuggledQuery : Message :=
  { adsQuery 1 with
    queries := [⟨⟨[labelOf "example", labelOf "org"], true⟩, .A, .IN⟩, ⟨adsName, .A, .IN⟩] }

/-- The blocked name goes upstream as a second question. -/
theorem second_question_forwarded :
    ∃ d d', Takes (Decided.step .ascii sampleText adsConfig) ⟨adsStart, []⟩
      [reloadFrom sampleDisk, .arrive smuggledQuery none, .lookup 0] d (.lookup 0) d' ∧
    ∃ c b, d'.state.calls[0]? = some c ∧ c.phase = .waiting ∧ d.rules[0]? = some b ∧
      ∃ q ∈ (c.upstreamQuery adsConfig).queries,
        b.decide .ascii (queryDomain sampleText q.name) = .block := by
  have hlast : ((run (Decided.step .ascii sampleText adsConfig) ⟨adsStart, []⟩
      [reloadFrom sampleDisk, .arrive smuggledQuery none]).bind fun d =>
        (d.step .ascii sampleText adsConfig (.lookup 0)).map fun d' =>
          (d'.state.calls[0]?, d.rules[0]?.map fun b =>
            b.decide .ascii (queryDomain sampleText adsName))) =
      some (some ⟨smuggledQuery, none, some .allow, .waiting⟩, some .block) := by
    decide +kernel
  obtain ⟨d, hd, hlast⟩ := Option.bind_eq_some_iff.mp hlast
  obtain ⟨d', hd', heq⟩ := Option.map_eq_some_iff.mp hlast
  obtain ⟨hc, hb⟩ := Prod.mk.inj heq
  obtain ⟨b, hb, hblock⟩ := Option.map_eq_some_iff.mp hb
  exact ⟨d, d', .last hd hd', _, b, hc, rfl, hb, ⟨adsName, .A, .IN⟩, by decide, hblock⟩

end Dotdns
