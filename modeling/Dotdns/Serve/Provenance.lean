import Dotdns.Serve.Links
import Dotdns.Server.Origins

/-!
# Serve — where an answer comes from

A reply travels from the attempt of a pool call to the task that made it,
through a channel to whatever calls joined the flight, and from there to
the resolver, its cache and later clients. The headline follows it back.
-/

namespace Dotdns

open Lib

theorem RepliesOk.mono {cfg : ResolveConfig} {Given Given' : Message → Message → Prop}
    {s : ResolverState} (h : RepliesOk cfg Given s)
    (himp : ∀ u reply, Given u reply → Given' u reply) : RepliesOk cfg Given' s where
  received j c reply hj hp := himp _ _ (h.received j c reply hj hp)
  cached k en u hk ho := by
    obtain ⟨reply, id, hgiven, hm⟩ := h.cached k en u hk ho
    exact ⟨reply, id, himp _ _ hgiven, hm⟩
  returned j c msg u hj hp := by
    obtain ⟨reply, hgiven, hm⟩ := h.returned j c msg u hj hp
    exact ⟨reply, himp _ _ hgiven, hm⟩

namespace ServeState

section
variable (U : UnicodeCase) (text : LabelText) (cfg : ResolveConfig) (toBytes : ToBytes)
variable (s₀ : ServeState)

/-- In the run of `es`, an upstream was sent `query` and replied. -/
def Obtained (es : List ServeEvent) (query reply : Message) : Prop :=
  ∃ (s : ServeState) (p : Nat) (a : Attempt) (s' : ServeState),
    Takes (step U text cfg toBytes) s₀ es s (.attempt p a) s' ∧
      s.sends p = some query ∧ a.result = .ok reply

/-- The reply to a query with the wire form of `u`, but for the ID. -/
def ObtainedFor (es : List ServeEvent) (u reply : Message) : Prop :=
  ∃ query key, pendingKey toBytes u = .ok key ∧ pendingKey toBytes query = .ok key ∧
    Obtained U text cfg toBytes s₀ es query reply

/-- Where the replies are, and that they were obtained. -/
structure Provenance (es : List ServeEvent) (s : ServeState) : Prop where
  flights : ∀ (l : Listener) (f : Nat) (fl : Flight) reply,
    (s.listeners.pending l).flights[f]? = some fl → fl.phase.result = some (.ok reply) →
    Obtained U text cfg toBytes s₀ es fl.query reply
  calls : ∀ (p : Nat) reply query, s.pool.calls[p]? = some (.returned (.ok reply)) →
    s.sends p = some query → Obtained U text cfg toBytes s₀ es query reply
  replies : RepliesOk cfg (ObtainedFor U text cfg toBytes s₀ es) s.resolver

end

section
variable {U : UnicodeCase} {text : LabelText} {cfg : ResolveConfig} {toBytes : ToBytes}
variable {s₀ s s' : ServeState} {es : List ServeEvent} {e : ServeEvent}

theorem Obtained.mono {es' : List ServeEvent} (hes : es <+: es') {query reply : Message}
    (h : Obtained U text cfg toBytes s₀ es query reply) :
    Obtained U text cfg toBytes s₀ es' query reply := by
  obtain ⟨s, p, a, s', ht, hsends, hok⟩ := h
  exact ⟨s, p, a, s', ht.mono hes, hsends, hok⟩

theorem ObtainedFor.mono {es' : List ServeEvent} (hes : es <+: es') {u reply : Message}
    (h : ObtainedFor U text cfg toBytes s₀ es u reply) :
    ObtainedFor U text cfg toBytes s₀ es' u reply := by
  obtain ⟨query, key, hu, hquery, hobtained⟩ := h
  exact ⟨query, key, hu, hquery, hobtained.mono hes⟩

/-! ## What the pool's calls send -/

theorem sends_eq_some {p : Nat} {query : Message} :
    s.sends p = some query ↔ ∃ l f fl, s.tasks[p]? = some (l, f) ∧
      (s.listeners.pending l).flights[f]? = some fl ∧ query = fl.query := by
  unfold sends
  constructor
  · intro h
    obtain ⟨⟨l, f⟩, htask, h⟩ := Option.bind_eq_some_iff.mp h
    obtain ⟨fl, hf, rfl⟩ := Option.map_eq_some_iff.mp h
    exact ⟨l, f, fl, htask, hf, rfl⟩
  · rintro ⟨l, f, fl, htask, hf, rfl⟩
    rw [htask, Option.bind_some, hf]
    rfl

/-- A call of the pool sends the query of a resolve call. -/
theorem Linked.sends (h : Linked cfg toBytes s) {p : Nat} (hp : p < s.pool.calls.length) :
    ∃ call ∈ s.resolver.calls, s.sends p = some (call.upstreamQuery cfg) := by
  rw [← h.tasks] at hp
  have htask := List.getElem?_eq_getElem hp
  have hlt := h.task s.tasks[p].1 s.tasks[p].2 (List.getElem_mem hp)
  have hf := List.getElem?_eq_getElem hlt
  obtain ⟨c, hmem, hquery⟩ := h.flight _ _ _ hf
  obtain ⟨k, hk⟩ := List.getElem?_of_mem hmem
  have hk' : k < (s.owners s.tasks[p].1).length := by
    rw [h.owners]
    exact (List.getElem?_eq_some_iff.mp hk).1
  obtain ⟨call, hcall, hquery'⟩ := h.caller _ k _ c (List.getElem?_eq_getElem hk') hk
  refine ⟨call, List.mem_of_getElem? hcall, sends_eq_some.mpr ⟨_, _, _, htask, hf, ?_⟩⟩
  rw [hquery, hquery']

/-- ... and the same query ever after. -/
theorem sends_before (h : Linked cfg toBytes s) (hs : s.step U text cfg toBytes e = some s')
    {p : Nat} (hp : p < s.pool.calls.length) {query : Message} (hq : s'.sends p = some query) :
    s.sends p = some query := by
  obtain ⟨l, f, fl', htask', hf', rfl⟩ := sends_eq_some.mp hq
  have htask : s.tasks[p]? = some (l, f) := by
    rw [← h.tasks] at hp
    cases step_cases hs with
    | query _ _ _ _ =>
        dsimp only at htask'
        rw [List.getElem?_append_left hp] at htask'
        exact htask'
    | _ => exact htask'
  have hlt := h.task l f (List.mem_of_getElem? htask)
  obtain ⟨fl₁, hfl₁, hq⟩ := flight_kept hs (List.getElem?_eq_getElem hlt)
  rw [hf'] at hfl₁
  cases hfl₁
  exact sends_eq_some.mpr ⟨l, f, _, htask, List.getElem?_eq_getElem hlt, hq⟩

/-! ## One step -/

theorem Provenance.start (now : Nat) (m : Metrics) (b : ReloadableBlocklist)
    (obs : Option ObservabilityRegistry) (names : List Str) (policy : UpstreamSelectionPolicy) :
    Provenance U text cfg toBytes s₀ [] (.init cfg now m b obs names policy) where
  flights l f fl reply h := by
    cases l <;> cases h
  calls p reply query h := by cases h
  replies :=
    { received := fun j c reply h => by cases h
      cached := fun k en u h => by cases h
      returned := fun j c msg u h => by cases h }

variable (hlinked : Linked cfg toBytes s) (h : Provenance U text cfg toBytes s₀ es s)
variable (hrun : run (ServeState.step U text cfg toBytes) s₀ es = some s)
variable (hs : s.step U text cfg toBytes e = some s')

include h hs in
theorem Provenance.step_flights (l : Listener) (f : Nat) (fl' : Flight) (reply : Message)
    (hf : (s'.listeners.pending l).flights[f]? = some fl')
    (hres : fl'.phase.result = some (.ok reply)) :
    Obtained U text cfg toBytes s₀ (es ++ [e]) fl'.query reply := by
  have hes : es <+: es ++ [e] := List.prefix_append _ _
  rcases flight_before hs hf with ⟨fl, hfl, hq, hsame | ⟨p, r, _, htask, hcall, hr⟩⟩ | ⟨_, hp, _⟩
  · rw [hq]
    exact (h.flights l f fl reply hfl (hsame.symm.trans hres)).mono hes
  · -- the task's own call of the pool has returned
    rw [hr] at hres
    cases hres
    rw [hq]
    exact (h.calls p reply fl.query hcall
      (sends_eq_some.mpr ⟨l, f, fl, htask, hfl, rfl⟩)).mono hes
  · rw [hp] at hres
    cases hres

include hlinked h hrun hs in
theorem Provenance.step_calls (p : Nat) (reply query : Message)
    (hp : s'.pool.calls[p]? = some (.returned (.ok reply))) (hq : s'.sends p = some query) :
    Obtained U text cfg toBytes s₀ (es ++ [e]) query reply := by
  have hold : s.pool.calls[p]? = some (.returned (.ok reply)) →
      Obtained U text cfg toBytes s₀ (es ++ [e]) query reply := by
    intro hp
    have hlt := (List.getElem?_eq_some_iff.mp hp).1
    exact (h.calls p reply query hp (sends_before hlinked hs hlt hq)).mono
      (List.prefix_append _ _)
  cases step_cases hs with
  | query hf hphase hnew hpool =>
      simp only [PoolState.step] at hpool
      split at hpool
      · cases hpool
        rcases getElem?_concat_eq_some.mp hp with hp | ⟨_, hp⟩
        · exact hold hp
        · cases hp
      · cases hpool
        rcases getElem?_concat_eq_some.mp hp with hp | ⟨_, hp⟩
        · exact hold hp
        · unfold PoolCall.next at hp
          split at hp <;> cases hp
  | @attempt p₁ a pool hpool =>
      have htakes := Takes.last hrun hs
      simp only [PoolState.step] at hpool
      split at hpool
      · rename_i idx order hi
        cases hpool
        rcases getElem?_set_eq_some.mp hp with ⟨_, hp⟩ | ⟨rfl, hlt, hp⟩
        · exact hold hp
        · -- the attempt that this call was waiting for
          have hok : a.result = .ok reply := by
            unfold PoolCall.after at hp
            split at hp
            · rename_i response hok
              cases hp
              exact hok
            · unfold PoolCall.next at hp
              split at hp <;> cases hp
          exact ⟨s, p, a, _, htakes, sends_before hlinked hs hlt hq, hok⟩
      · cases hpool
  | _ => exact hold hp

include hlinked h in
/-- What a coalescer's call returns was obtained for the resolve call that
made it. -/
theorem Provenance.returned {l : Listener} {k i : Nat} {c : Caller} {call : Call}
    {reply : Message} (howner : (s.owners l)[k]? = some i)
    (hc : (s.listeners.pending l).callers[k]? = some c)
    (hvalue : c.phase.returnedValue = some (.ok reply))
    (hcall : s.resolver.calls[i]? = some call) :
    ObtainedFor U text cfg toBytes s₀ es (call.upstreamQuery cfg) reply := by
  obtain ⟨call', hcall', hquery⟩ := hlinked.caller l k i c howner hc
  rw [hcall] at hcall'
  cases hcall'
  have hok := (hlinked.pending l).callers c (List.mem_of_getElem? hc)
  rw [← hquery]
  obtain ⟨query, phase⟩ := c
  cases phase with
  | returned leader f r =>
      cases hvalue
      obtain ⟨fl, hf, hkey, hdone⟩ := hok
      exact ⟨fl.query, fl.key, hkey, (hlinked.pending l).key f fl hf,
        h.flights l f fl reply hf (by rw [hdone]; rfl)⟩
  | starting key => cases hvalue
  | waiting leader f => cases hvalue
  | cancelled => cases hvalue
  | failed err => cases hvalue
  | orphaned leader f => cases hvalue
  | timedOut leader f => cases hvalue

include hlinked h hs in
theorem Provenance.step_replies :
    RepliesOk cfg (ObtainedFor U text cfg toBytes s₀ (es ++ [e])) s'.resolver := by
  have hmono : RepliesOk cfg (ObtainedFor U text cfg toBytes s₀ (es ++ [e])) s.resolver :=
    h.replies.mono fun u reply hgiven => hgiven.mono (List.prefix_append _ _)
  have hquiet : ∀ {ev : ResolverEvent} {r : ResolverState},
      s.resolver.step U text cfg ev = some r → (∀ i result, ev ≠ .reply i result) →
      RepliesOk cfg (ObtainedFor U text cfg toBytes s₀ (es ++ [e])) r :=
    fun hr hne => hmono.step hr fun i c reply he _ => absurd he (hne i _)
  cases step_cases hs with
  | resolver halone hr =>
      refine hquiet hr ?_
      rintro i result rfl
      cases halone
  | hit hr _ => exact hquiet hr (by simp)
  | missed hr _ _ => exact hquiet hr (by simp)
  | cancel _ hr _ => exact hquiet hr (by simp)
  | resume howner hc hvalue hr =>
      refine hmono.step hr fun i call reply he hcall => ?_
      cases he
      exact (Provenance.returned hlinked h howner hc hvalue hcall).mono (List.prefix_append _ _)
  | pending _ _ => exact hmono
  | query _ _ _ _ => exact hmono
  | attempt _ => exact hmono
  | answer _ _ _ => exact hmono

end

/-! ## Every run -/

section
variable {U : UnicodeCase} {text : LabelText} {cfg : ResolveConfig} {toBytes : ToBytes}
variable {now : Nat} {m : Metrics} {b : ReloadableBlocklist}
variable {obs : Option ObservabilityRegistry} {names : List Str}
variable {policy : UpstreamSelectionPolicy} {es : List ServeEvent} {s : ServeState}

theorem linked_of_passes
    (h : Passes (step U text cfg toBytes) (.init cfg now m b obs names policy) es s) :
    Linked cfg toBytes s :=
  h.invariant_of_step (Linked.start now m b obs names policy) fun _ _ _ hi hs => hi.step hs

theorem provenance_of_run
    (hrun : run (step U text cfg toBytes) (.init cfg now m b obs names policy) es = some s) :
    Provenance U text cfg toBytes (.init cfg now m b obs names policy) es s := by
  refine run_induction (Provenance.start now m b obs names policy) ?_ hrun
  intro es s e s' hrun h hs
  have hlinked := linked_of_passes (Passes.finish hrun)
  exact ⟨h.step_flights hs, h.step_calls hlinked hrun hs, h.step_replies hlinked hs⟩

end

end ServeState

/-- **The parts of a serving process.** In every run: what the resolver, the
coalescers and the pool do is a run of each of them, so that what holds of
all their runs holds here; no flight makes two calls of the pool; and what
an attempt sends is the query of a resolve call, with the ECS option that
the call puts on it. -/
theorem serve_parts_run (U : UnicodeCase) (text : LabelText) (cfg : ResolveConfig)
    (toBytes : ToBytes) (now : Nat) (m : Metrics) (b : ReloadableBlocklist)
    (obs : Option ObservabilityRegistry) (names : List Str) (policy : UpstreamSelectionPolicy)
    (es : List ServeEvent) (s : ServeState)
    (hrun : run (ServeState.step U text cfg toBytes) (.init cfg now m b obs names policy) es =
      some s) :
    let step := ServeState.step U text cfg toBytes
    let start := ServeState.init cfg now m b obs names policy
    run (ResolverState.step U text cfg) (.init cfg now m b obs)
        (trace step ServeState.resolverEvent start es) = some s.resolver ∧
      run (Listeners.step toBytes) (.init m)
        (trace step (ServeState.listenersEvent U text cfg) start es) = some s.listeners ∧
      run PoolState.step (.init names policy m)
        (trace step (fun _ => ServeState.poolEvent) start es) = some s.pool ∧
      s.tasks.Nodup ∧
      ∀ t p a t', Takes step start es t (.attempt p a) t' →
        ∃ call ∈ t.resolver.calls, t.sends p = some (call.upstreamQuery cfg) := by
  intro step start
  refine ⟨run_trace ServeState.resolver (fun _ _ _ => ServeState.resolver_step) hrun,
    run_trace ServeState.listeners (fun _ _ _ => ServeState.listeners_step) hrun,
    run_trace ServeState.pool (fun _ _ _ => ServeState.pool_step) hrun,
    (ServeState.linked_of_passes (Passes.finish hrun)).nodup, ?_⟩
  intro t p a t' ht
  refine (ServeState.linked_of_passes ht.source).sends ?_
  cases ServeState.step_cases ht.step_eq with
  | attempt hp =>
      simp only [PoolState.step] at hp
      split at hp
      · rename_i hi
        exact (List.getElem?_eq_some_iff.mp hi).1
      · cases hp

/-! A query over DoT, whose first upstream times out, and the same query
over DoH once the answer is cached. -/

/-- Two upstreams, and nothing asked. -/
def serveStart : ServeState :=
  .init adsConfig 0 {} (.fromConfig adsConfig.blocklist) none ["a".toList, "b".toList] .sequential

/-- One query is answered by the second upstream, the next from the cache. -/
def serveRun : List ServeEvent :=
  [.resolver (.arrive (adsQuery 1) none), .lookup .dot 0, .pending .dot (.join 0),
   .query .dot 0 0, .attempt 0 { result := .error .timeout },
   .attempt 0 { result := .ok adsResponse }, .answer 0, .pending .dot (.remove 0),
   .pending .dot (.publish 0), .pending .dot (.poll 0), .resume .dot 0,
   .resolver (.insert 0 0), .resolver (.arrive (adsQuery 2) none), .lookup .doh 1]

theorem serveRun_finishes :
    ∃ s, run (ServeState.step .ascii sampleText adsConfig adsToBytes) serveStart serveRun =
        some s ∧
      s.resolver.calls[1]? = some ⟨adsQuery 2, none, some .allow,
        .done ((adsResponse.withTtl 300).setId 2) (some (.upstream (adsQuery 1)))⟩ := by
  rw [← Option.map_eq_some_iff (f := fun s : ServeState => s.resolver.calls[1]?)]
  decide +kernel

theorem serve_parts_run_two_queries :
    ∃ s, run (ServeState.step .ascii sampleText adsConfig adsToBytes) serveStart serveRun =
        some s ∧
      run PoolState.step (.init ["a".toList, "b".toList] .sequential {})
        [.call 0, .attempt 0 { result := .error .timeout },
         .attempt 0 { result := .ok adsResponse }] = some s.pool := by
  obtain ⟨s, hs, _⟩ := serveRun_finishes
  obtain ⟨_, _, hpool, _⟩ := serve_parts_run .ascii sampleText adsConfig adsToBytes 0 {} _ none
    _ .sequential serveRun s hs
  exact ⟨s, hs, hpool⟩

/-- **Every answer of an upstream was given by an upstream.** In every state
of every run, whatever the interleaving, the timeouts and the dropped
futures: a message that is cached, on its way to a client or returned as
the answer of an upstream to the query `u` is a reply that some attempt of
the run got for a query with the wire form of `u`, the transaction ID
apart. -/
theorem served_replies_obtained (U : UnicodeCase) (text : LabelText) (cfg : ResolveConfig)
    (toBytes : ToBytes) (now : Nat) (m : Metrics) (b : ReloadableBlocklist)
    (obs : Option ObservabilityRegistry) (names : List Str) (policy : UpstreamSelectionPolicy)
    (es : List ServeEvent) (s : ServeState)
    (hrun : run (ServeState.step U text cfg toBytes) (.init cfg now m b obs names policy) es =
      some s) :
    RepliesOk cfg
      (ServeState.ObtainedFor U text cfg toBytes (.init cfg now m b obs names policy) es)
      s.resolver :=
  (ServeState.provenance_of_run hrun).replies

/-- The second client gets what upstream `b` said to the first. -/
theorem served_replies_obtained_two_queries :
    ∃ s c msg reply, run (ServeState.step .ascii sampleText adsConfig adsToBytes) serveStart
        serveRun = some s ∧
      s.resolver.calls[1]? = some c ∧ c.phase = .done msg (some (.upstream (adsQuery 1))) ∧
      FromReply reply msg ∧
      ServeState.ObtainedFor .ascii sampleText adsConfig adsToBytes serveStart serveRun
        (adsQuery 1) reply := by
  obtain ⟨s, hs, hc⟩ := serveRun_finishes
  obtain ⟨reply, hobtained, hmsg⟩ := (served_replies_obtained .ascii sampleText adsConfig
    adsToBytes 0 {} _ none _ .sequential serveRun s hs).returned 1 _ _ _ hc rfl
  exact ⟨s, _, _, reply, hs, hc, rfl, hmsg, hobtained⟩

end Dotdns
