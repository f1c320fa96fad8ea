import Dotdns.Lib.Run
import Dotdns.Observability
import Dotdns.Cache.Basic
import Dotdns.Blocklist.NameMatch
import Dotdns.Blocklist.Reload
import Dotdns.Server.Response
import Dotdns.Upstream.Error

/-!
# Server — resolving queries

`resolve_with_context` as a transition system over everything its calls
share: the cache, the blocklist, the counters and the clock. A call takes
one step per access to a shared object, so the steps of concurrent calls
interleave in every order, also where the source has no await. Reloads,
flushes and the passage of time are steps of their own.

Every cache entry and every finished call carries a ghost `Origin`: the
query a synthesized answer was made for, or the query an upstream
answered.
-/

namespace Dotdns

open Lib

/-- What an entry of the cache, or an answer, comes from. -/
inductive Origin where
  | blocked (query : Message)
  | upstream (query : Message)
  deriving DecidableEq

/-- It was made here, not upstream. -/
def Origin.isBlocked : Origin → Bool
  | .blocked _ => true
  | .upstream _ => false

/-- What `resolve_with_context` reads of the configuration. -/
structure ResolveConfig where
  cache : CacheConfig
  edns : EdnsConfig
  blocklist : BlocklistConfig

/-- Where a call stands. An answer made for the call itself because of an
error has no origin. -/
inductive CallPhase where
  | lookup
  | store
  | waiting
  | received (response : Message)
  | done (answer : Message) (origin : Option Origin)
  | cancelled
  deriving DecidableEq

/-- One call. `decision` is what the blocklist said when it arrived, `none`
for a query without a question. -/
structure Call where
  query : Message
  clientIp : Option IpAddr
  decision : Option BlockDecision
  phase : CallPhase
  deriving DecidableEq

/-- `ctx.blocklist.decide(domain).is_blocked()`, as decided on arrival. -/
def Call.isBlocked (c : Call) : Bool := c.decision.any BlockDecision.isBlocked

/-- The query as it is looked up, stored and sent. -/
def Call.upstreamQuery (cfg : ResolveConfig) (c : Call) : Message :=
  queryWithEcs c.query c.clientIp cfg.edns

/-- What all calls of `resolve_with_context` share, and the calls. -/
structure ResolverState where
  now : Nat
  metrics : Metrics
  cache : Cache Origin
  blocklist : ReloadableBlocklist
  observability : Option ObservabilityRegistry
  calls : List Call

/-- `ManagementRequest`. -/
inductive ManagementRequest where
  | status
  | cacheFlush
  | blocklistReload
  | tracking
  | sources
  | sourcestats
  | activity
  | clients
  deriving DecidableEq, Repr

/-- What the calls do, one await at a time, and what is done to them. -/
inductive ResolverEvent where
  /-- A query arrives: it is counted and its name decided. -/
  | arrive (query : Message) (clientIp : Option IpAddr)
  /-- Call `i` reads the cache. -/
  | lookup (i : Nat)
  /-- Blocked call `i`, after a miss, makes and stores its answer. -/
  | store (i : Nat) (pick : Nat)
  /-- `pending.query` returns to call `i`. -/
  | reply (i : Nat) (result : PendingResult)
  /-- Call `i` stores the upstream's answer and returns it. -/
  | insert (i : Nat) (pick : Nat)
  /-- The future of call `i` is dropped at its await. -/
  | cancel (i : Nat)
  /-- A management request; a reload finds `disk` and the answers `io`. -/
  | manage (req : ManagementRequest) (io : ReloadIo) (disk : Disk)
  /-- The periodic refresh. -/
  | refresh (io : ReloadIo) (disk : Disk)
  | tick (elapsed : Nat)

namespace ResolverState

/-- `if let (Some(obs), Some(ip))`: per-client accounting. -/
def note (f : ObservabilityRegistry → IpAddr → ObservabilityRegistry) (ip : Option IpAddr)
    (obs : Option ObservabilityRegistry) : Option ObservabilityRegistry :=
  match obs, ip with
  | some reg, some ip => some (f reg ip)
  | obs, _ => obs

/-- Call `i` moves on. -/
def setPhase (s : ResolverState) (i : Nat) (phase : CallPhase) : ResolverState :=
  { s with calls := s.calls.modify i fun c => { c with phase } }

section
variable (U : UnicodeCase) (text : LabelText) (cfg : ResolveConfig)

/-- The code up to the first look at the cache. -/
def arrive (s : ResolverState) (query : Message) (clientIp : Option IpAddr) : ResolverState :=
  let s := { s with
    metrics := s.metrics.recordQuery
    observability := note .recordClientQuery clientIp s.observability }
  match query.queries.head? with
  | none =>
      { s with calls := s.calls ++
          [⟨query, clientIp, none, .done (makeErrorResponse query .formErr) none⟩] }
  | some q =>
      let decision := s.blocklist.decide U (queryDomain text q.name)
      let s := { s with calls := s.calls ++ [⟨query, clientIp, some decision, .lookup⟩] }
      if decision.isBlocked then
        { s with
          metrics := s.metrics.recordBlocked
          observability := note .recordClientBlocked clientIp s.observability }
      else s

/-- One read of the cache; both branches of the source do the same here
and differ only in what follows a miss. -/
def lookup (s : ResolverState) (i : Nat) (c : Call) : ResolverState :=
  match s.cache.get s.metrics s.now (c.upstreamQuery cfg) with
  | (some (cached, origin), cache, metrics) =>
      { s with
        cache
        metrics := metrics.recordCacheHit
        observability := note .recordClientCacheHit c.clientIp s.observability
        calls := s.calls.modify i fun c =>
          { c with phase := .done (cached.setId c.query.id) (some origin) } }
  | (none, cache, metrics) =>
      { s with
        cache
        metrics := metrics.recordCacheMiss
        observability := note .recordClientCacheMiss c.clientIp s.observability
        calls := s.calls.modify i fun c =>
          { c with phase := if c.isBlocked then .store else .waiting } }

/-- Store an answer for call `i` and return it. -/
def finish (s : ResolverState) (i : Nat) (c : Call) (pick : Nat) (answer : Message)
    (origin : Origin) : ResolverState :=
  let (cache, metrics) :=
    s.cache.insert s.metrics s.now pick (c.upstreamQuery cfg) answer origin
  { s with cache, metrics, calls := s.calls.modify i fun c =>
      { c with phase := .done answer (some origin) } }

/-- `dispatch`, as far as it changes the shared state. -/
def dispatch (s : ResolverState) (req : ManagementRequest) (io : ReloadIo) (disk : Disk) :
    ResolverState :=
  match req with
  | .cacheFlush =>
      let (cache, metrics) := s.cache.flush s.metrics
      { s with cache, metrics }
  | .blocklistReload => { s with blocklist := (s.blocklist.refreshAndReload U io disk).2.1 }
  | .status | .tracking | .sources | .sourcestats | .activity | .clients => s

/-- One step of a call, of management or of time. -/
def step (s : ResolverState) : ResolverEvent → Option ResolverState
  | .arrive query clientIp => some (s.arrive U text query clientIp)
  | .lookup i =>
      match s.calls[i]? with
      | some ⟨query, clientIp, decision, .lookup⟩ =>
          some (s.lookup cfg i ⟨query, clientIp, decision, .lookup⟩)
      | _ => none
  | .store i pick =>
      match s.calls[i]? with
      | some ⟨query, clientIp, decision, .store⟩ =>
          some (s.finish cfg i ⟨query, clientIp, decision, .store⟩ pick
            (makeBlockedResponse query cfg.blocklist) (.blocked query))
      | _ => none
  | .reply i result =>
      match s.calls[i]? with
      | some ⟨query, _, _, .waiting⟩ =>
          -- an error is answered at once, and is not cached
          match result with
          | .ok response => some (s.setPhase i (.received response))
          | .error _ => some (s.setPhase i (.done (makeErrorResponse query .servFail) none))
      | _ => none
  | .insert i pick =>
      match s.calls[i]? with
      | some ⟨query, clientIp, decision, .received response⟩ =>
          let c : Call := ⟨query, clientIp, decision, .received response⟩
          some (s.finish cfg i c pick (response.setId query.id) (.upstream (c.upstreamQuery cfg)))
      | _ => none
  | .cancel i =>
      match s.calls[i]? with
      | some ⟨_, _, _, .waiting⟩ => some (s.setPhase i .cancelled)
      | _ => none
  | .manage req io disk => some (s.dispatch U req io disk)
  | .refresh io disk =>
      -- spawned only for an enabled blocklist with an interval
      if cfg.blocklist.enabled && cfg.blocklist.refreshInterval.isSome
      then some { s with blocklist := (s.blocklist.refreshAndReload U io disk).2.1 }
      else none
  | .tick elapsed => some { s with now := s.now + elapsed }

/-- A resolver with an empty cache and no calls. -/
def init (now : Nat) (metrics : Metrics) (blocklist : ReloadableBlocklist)
    (observability : Option ObservabilityRegistry) : ResolverState :=
  let (cache, metrics) := Cache.new cfg.cache metrics
  ⟨now, metrics, cache, blocklist, observability, []⟩

end

/-! ## What a step can do -/

section
variable {U : UnicodeCase} {text : LabelText} {cfg : ResolveConfig}
variable {s s' : ResolverState} {e : ResolverEvent}

/-- The steps as a relation, guards included. -/
inductive Step (U : UnicodeCase) (text : LabelText) (cfg : ResolveConfig) (s : ResolverState) :
    ResolverEvent → ResolverState → Prop
  | arrive (query : Message) (clientIp : Option IpAddr) :
      Step U text cfg s (.arrive query clientIp) (s.arrive U text query clientIp)
  | lookup {i : Nat} {c : Call} : s.calls[i]? = some c → c.phase = .lookup →
      Step U text cfg s (.lookup i) (s.lookup cfg i c)
  | store {i : Nat} {c : Call} (pick : Nat) : s.calls[i]? = some c → c.phase = .store →
      Step U text cfg s (.store i pick) (s.finish cfg i c pick
        (makeBlockedResponse c.query cfg.blocklist) (.blocked c.query))
  | replied {i : Nat} {c : Call} (response : Message) : s.calls[i]? = some c →
      c.phase = .waiting →
      Step U text cfg s (.reply i (.ok response)) (s.setPhase i (.received response))
  | failed {i : Nat} {c : Call} (err : UpstreamError) : s.calls[i]? = some c →
      c.phase = .waiting →
      Step U text cfg s (.reply i (.error err))
        (s.setPhase i (.done (makeErrorResponse c.query .servFail) none))
  | insert {i : Nat} {c : Call} {response : Message} (pick : Nat) : s.calls[i]? = some c →
      c.phase = .received response →
      Step U text cfg s (.insert i pick) (s.finish cfg i c pick (response.setId c.query.id)
        (.upstream (c.upstreamQuery cfg)))
  | cancel {i : Nat} {c : Call} : s.calls[i]? = some c → c.phase = .waiting →
      Step U text cfg s (.cancel i) (s.setPhase i .cancelled)
  | manage (req : ManagementRequest) (io : ReloadIo) (disk : Disk) :
      Step U text cfg s (.manage req io disk) (s.dispatch U req io disk)
  | refresh (io : ReloadIo) (disk : Disk) : cfg.blocklist.enabled = true →
      cfg.blocklist.refreshInterval.isSome = true →
      Step U text cfg s (.refresh io disk)
        { s with blocklist := (s.blocklist.refreshAndReload U io disk).2.1 }
  | tick (elapsed : Nat) : Step U text cfg s (.tick elapsed) { s with now := s.now + elapsed }

/-- **Every step is one of these.** -/
theorem step_cases (hs : s.step U text cfg e = some s') : Step U text cfg s e s' := by
  cases e with
  | arrive query clientIp =>
      cases hs
      exact .arrive query clientIp
  | lookup i =>
      simp only [step] at hs
      split at hs
      · rename_i hi
        cases hs
        exact .lookup hi rfl
      · cases hs
  | store i pick =>
      simp only [step] at hs
      split at hs
      · rename_i hi
        cases hs
        exact .store pick hi rfl
      · cases hs
  | reply i result =>
      simp only [step] at hs
      split at hs
      · rename_i hi
        cases result with
        | ok response =>
            cases hs
            exact .replied response hi rfl
        | error err =>
            cases hs
            exact .failed err hi rfl
      · cases hs
  | insert i pick =>
      simp only [step] at hs
      split at hs
      · rename_i hi
        cases hs
        exact .insert pick hi rfl
      · cases hs
  | cancel i =>
      simp only [step] at hs
      split at hs
      · rename_i hi
        cases hs
        exact .cancel hi rfl
      · cases hs
  | manage req io disk =>
      cases hs
      exact .manage req io disk
  | refresh io disk =>
      simp only [step] at hs
      split at hs
      · rename_i hen
        cases hs
        exact .refresh io disk ((Bool.and_eq_true _ _).mp hen).1
          ((Bool.and_eq_true _ _).mp hen).2
      · cases hs
  | tick elapsed =>
      cases hs
      exact .tick elapsed

/-- The call that an arriving query becomes. -/
def newCall (U : UnicodeCase) (text : LabelText) (b : ReloadableBlocklist) (query : Message)
    (clientIp : Option IpAddr) : Call :=
  match query.queries.head? with
  | none => ⟨query, clientIp, none, .done (makeErrorResponse query .formErr) none⟩
  | some q => ⟨query, clientIp, some (b.decide U (queryDomain text q.name)), .lookup⟩

/-- A new call looks at the cache next, or has its answer already. -/
theorem newCall_phase (b : ReloadableBlocklist) (query : Message) (clientIp : Option IpAddr) :
    (newCall U text b query clientIp).phase = .lookup ∨
      (newCall U text b query clientIp).phase = .done (makeErrorResponse query .formErr) none := by
  unfold newCall
  cases query.queries.head? with
  | none => exact .inr rfl
  | some q => exact .inl rfl

/-- A new call has nothing from an upstream. -/
theorem newCall_not_upstream (b : ReloadableBlocklist) (query : Message)
    (clientIp : Option IpAddr) (msg u : Message) :
    (newCall U text b query clientIp).phase ≠ .done msg (some (.upstream u)) := by
  intro hp
  rcases newCall_phase (U := U) b query clientIp with hnew | hnew
  · rw [hnew] at hp
    cases hp
  · rw [hnew] at hp
    cases hp

/-- The phases call `j` can move to in one step. -/
inductive Moves (cfg : ResolveConfig) (s : ResolverState) (e : ResolverEvent) (j : Nat)
    (c : Call) : CallPhase → Prop
  | hit {msg : Message} {origin : Origin} : e = .lookup j → c.phase = .lookup →
      (s.cache.get s.metrics s.now (c.upstreamQuery cfg)).1 = some (msg, origin) →
      Moves cfg s e j c (.done (msg.setId c.query.id) (some origin))
  | miss : e = .lookup j → c.phase = .lookup →
      (s.cache.get s.metrics s.now (c.upstreamQuery cfg)).1 = none →
      Moves cfg s e j c (if c.isBlocked then .store else .waiting)
  | stored {pick : Nat} : e = .store j pick → c.phase = .store →
      Moves cfg s e j c
        (.done (makeBlockedResponse c.query cfg.blocklist) (some (.blocked c.query)))
  | replied {response : Message} : e = .reply j (.ok response) → c.phase = .waiting →
      Moves cfg s e j c (.received response)
  | failed {err : UpstreamError} : e = .reply j (.error err) → c.phase = .waiting →
      Moves cfg s e j c (.done (makeErrorResponse c.query .servFail) none)
  | inserted {pick : Nat} {response : Message} : e = .insert j pick →
      c.phase = .received response →
      Moves cfg s e j c
        (.done (response.setId c.query.id) (some (.upstream (c.upstreamQuery cfg))))
  | cancelled : e = .cancel j → c.phase = .waiting → Moves cfg s e j c .cancelled

/-- A call after a step is as before, has just arrived, or has moved. -/
def CallAfter (U : UnicodeCase) (text : LabelText) (cfg : ResolveConfig) (s : ResolverState)
    (e : ResolverEvent) (j : Nat) (c' : Call) : Prop :=
  s.calls[j]? = some c' ∨
  (∃ query clientIp, e = .arrive query clientIp ∧
    c' = newCall U text s.blocklist query clientIp) ∨
  ∃ c phase, s.calls[j]? = some c ∧ Moves cfg s e j c phase ∧ c' = { c with phase }

theorem calls_arrive {query : Message} {clientIp : Option IpAddr} :
    (s.arrive U text query clientIp).calls =
      s.calls ++ [newCall U text s.blocklist query clientIp] := by
  unfold arrive newCall
  cases query.queries.head? with
  | none => rfl
  | some q =>
      dsimp only
      split <;> rfl

theorem callAfter_modify {i j : Nat} {c c' : Call} (hi : s.calls[i]? = some c)
    {phase : Call → CallPhase} (hmove : Moves cfg s e i c (phase c))
    (hj : (s.calls.modify i fun c => { c with phase := phase c })[j]? = some c') :
    CallAfter U text cfg s e j c' := by
  rcases getElem?_modify_eq_some.mp hj with ⟨_, hj⟩ | ⟨rfl, x, hx, rfl⟩
  · exact .inl hj
  · rw [hi] at hx
    cases hx
    exact .inr (.inr ⟨c, phase c, hi, hmove, rfl⟩)

/-- **Every way a call can change.** -/
theorem step_calls (hs : s.step U text cfg e = some s') {j : Nat} {c' : Call}
    (hj : s'.calls[j]? = some c') : CallAfter U text cfg s e j c' := by
  cases step_cases hs with
  | arrive query clientIp =>
      rw [calls_arrive] at hj
      rcases getElem?_concat_eq_some.mp hj with hj | ⟨_, rfl⟩
      · exact .inl hj
      · exact .inr (.inl ⟨query, clientIp, rfl, rfl⟩)
  | lookup hi hp =>
      unfold lookup at hj
      split at hj
      · rename_i cached origin cache metrics hget
        exact callAfter_modify hi (.hit rfl hp (by rw [hget])) hj
      · rename_i cache metrics hget
        exact callAfter_modify hi (.miss rfl hp (by rw [hget])) hj
  | store pick hi hp => exact callAfter_modify hi (.stored rfl hp) hj
  | replied response hi hp => exact callAfter_modify hi (.replied rfl hp) hj
  | failed err hi hp => exact callAfter_modify hi (.failed rfl hp) hj
  | insert pick hi hp => exact callAfter_modify hi (.inserted rfl hp) hj
  | cancel hi hp => exact callAfter_modify hi (.cancelled rfl hp) hj
  | manage req io disk =>
      refine .inl ?_
      cases req <;> exact hj
  | refresh io disk _ _ => exact .inl hj
  | tick elapsed => exact .inl hj

/-- The rule for a property of single calls: it holds of every new call and
every move keeps it. -/
theorem forall_calls_step {P : Call → Prop} (h : ∀ (j : Nat) c, s.calls[j]? = some c → P c)
    (hs : s.step U text cfg e = some s')
    (hnew : ∀ query clientIp, P (newCall U text s.blocklist query clientIp))
    (hmove : ∀ (j : Nat) c phase, s.calls[j]? = some c → P c → Moves cfg s e j c phase →
      P { c with phase }) :
    ∀ (j : Nat) c, s'.calls[j]? = some c → P c := by
  intro j c' hj
  rcases step_calls hs hj with hold | ⟨query, clientIp, _, rfl⟩ | ⟨c, phase, hc, hm, rfl⟩
  · exact h j c' hold
  · exact hnew query clientIp
  · exact hmove j c phase hc (h j c hc) hm

theorem cache_lookup {i : Nat} {c : Call} : (s.lookup cfg i c).cache =
    (s.cache.get s.metrics s.now (c.upstreamQuery cfg)).2.1 := by
  unfold lookup
  split
  · rename_i hget
    rw [hget]
  · rename_i hget
    rw [hget]

/-- The cache key of the query, when it has one, is `k`. -/
def HasKey (query : Message) (k : CacheKey) : Prop :=
  ∃ key, CacheKey.fromMessage query = some key ∧ (key == k) = true

theorem entries_finish {i pick : Nat} {c : Call} {answer : Message} {origin : Origin}
    {k : CacheKey} {en : CacheEntry Origin}
    (h : (s.finish cfg i c pick answer origin).cache.entries.get? k = some en) :
    s.cache.entries.get? k = some en ∨
      HasKey (c.upstreamQuery cfg) k ∧ en.message = answer ∧ en.origin = origin := by
  rcases Cache.insert_entries_cases h with ⟨key, ttl, hkey, hk, _, rfl⟩ | h
  · exact .inr ⟨⟨key, hkey, hk⟩, rfl, rfl⟩
  · exact .inl h

/-- **Every way an entry can come to be stored.** -/
theorem step_entries (hs : s.step U text cfg e = some s') {k : CacheKey}
    {en : CacheEntry Origin} (h : s'.cache.entries.get? k = some en) :
    s.cache.entries.get? k = some en ∨
    ∃ (j : Nat) (c : Call), s.calls[j]? = some c ∧ HasKey (c.upstreamQuery cfg) k ∧
      (c.phase = .store ∧ en.message = makeBlockedResponse c.query cfg.blocklist ∧
        en.origin = .blocked c.query ∨
      ∃ response, c.phase = .received response ∧ en.message = response.setId c.query.id ∧
        en.origin = .upstream (c.upstreamQuery cfg)) := by
  cases step_cases hs with
  | arrive query clientIp =>
      refine .inl ?_
      unfold arrive at h
      cases hq : query.queries.head? with
      | none => simpa [hq] using h
      | some q =>
          simp only [hq] at h
          split at h <;> exact h
  | lookup _ _ =>
      rw [cache_lookup] at h
      exact .inl (Cache.get_entries_subset h)
  | store pick hi hp =>
      rcases entries_finish h with h | ⟨hk, hm, ho⟩
      · exact .inl h
      · exact .inr ⟨_, _, hi, hk, .inl ⟨hp, hm, ho⟩⟩
  | insert pick hi hp =>
      rcases entries_finish h with h | ⟨hk, hm, ho⟩
      · exact .inl h
      · exact .inr ⟨_, _, hi, hk, .inr ⟨_, hp, hm, ho⟩⟩
  | manage req io disk =>
      cases req with
      | cacheFlush =>
          simp only [dispatch] at h
          cases h
      | _ => exact .inl h
  | _ => exact .inl h

variable (cfg s) in
theorem calls_lookup_eq (i : Nat) (c : Call) :
    ∃ phase : Call → CallPhase,
      (s.lookup cfg i c).calls = s.calls.modify i fun c => { c with phase := phase c } := by
  unfold lookup
  split
  · exact ⟨_, rfl⟩
  · exact ⟨_, rfl⟩

theorem calls_finish (i pick : Nat) (c : Call) (answer : Message) (origin : Origin) :
    (s.finish cfg i c pick answer origin).calls =
      s.calls.modify i fun c => { c with phase := .done answer (some origin) } := rfl

theorem calls_setPhase (i : Nat) (phase : CallPhase) :
    (s.setPhase i phase).calls = s.calls.modify i fun c => { c with phase } := rfl

/-- A call is for the same query of the same client ever after, and what it
has returned stays. -/
theorem call_kept (hs : s.step U text cfg e = some s') {i : Nat} {c : Call}
    (hi : s.calls[i]? = some c) :
    ∃ phase, s'.calls[i]? = some { c with phase } ∧
      ∀ answer o, c.phase = .done answer o → phase = .done answer o := by
  have hmodify : ∀ {j : Nat} {c₁ : Call} (phase : Call → CallPhase), s.calls[j]? = some c₁ →
      (∀ answer o, c₁.phase ≠ .done answer o) →
      ∃ phase', (s.calls.modify j fun c => { c with phase := phase c })[i]? =
          some { c with phase := phase' } ∧
        ∀ answer o, c.phase = .done answer o → phase' = .done answer o := by
    intro j c₁ phase hj hopen
    by_cases hij : i = j
    · subst hij
      rw [hi] at hj
      cases hj
      refine ⟨phase c, getElem?_modify_eq_some.mpr (.inr ⟨rfl, c, hi, rfl⟩), ?_⟩
      intro answer o hdone
      exact absurd hdone (hopen answer o)
    · exact ⟨c.phase, getElem?_modify_eq_some.mpr (.inl ⟨hij, hi⟩), fun _ _ hdone => hdone⟩
  have hsame : ∃ phase, s.calls[i]? = some { c with phase } ∧
      ∀ answer o, c.phase = .done answer o → phase = .done answer o :=
    ⟨c.phase, hi, fun _ _ hdone => hdone⟩
  cases step_cases hs with
  | arrive query clientIp =>
      rw [calls_arrive]
      exact ⟨c.phase, getElem?_concat_eq_some.mpr (.inl hi), fun _ _ hdone => hdone⟩
  | @lookup j c₁ hj hp =>
      obtain ⟨phase, hcalls⟩ := calls_lookup_eq cfg s j c₁
      rw [hcalls]
      exact hmodify phase hj (by simp [hp])
  | store pick hj hp =>
      rw [calls_finish]
      exact hmodify _ hj (by simp [hp])
  | replied response hj hp =>
      rw [calls_setPhase]
      exact hmodify _ hj (by simp [hp])
  | failed err hj hp =>
      rw [calls_setPhase]
      exact hmodify _ hj (by simp [hp])
  | insert pick hj hp =>
      rw [calls_finish]
      exact hmodify _ hj (by simp [hp])
  | cancel hj hp =>
      rw [calls_setPhase]
      exact hmodify _ hj (by simp [hp])
  | manage req io disk => cases req <;> exact hsame
  | refresh io disk _ _ => exact hsame
  | tick elapsed => exact hsame

end

end ResolverState

end Dotdns
