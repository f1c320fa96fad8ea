import Dotdns.Upstream.Accounting
import Dotdns.Upstream.Endpoints

/-!
# Upstream — what is counted as a timeout

The pool tells a timeout from the other failures by the error value that
the upstream's `query` returns. A plain upstream passes the timeout of its
last way on; a DoT or a DoH upstream has made it part of a text by then.
-/

namespace Dotdns

open Lib

/-- What an entry adds to the timeouts. -/
def Entry.timeouts : Entry → UInt64
  | .timeout => 1
  | .success _ | .failure => 0

theorem Entry.timeouts_inMetrics (entry : Entry) (m : Metrics) :
    (entry.inMetrics m).upstreamTimeouts = m.upstreamTimeouts + entry.timeouts := by
  cases entry <;>
    simp [inMetrics, timeouts, Metrics.recordUpstreamSuccess, Metrics.recordUpstreamFailure,
      Metrics.recordUpstreamTimeout]

theorem Entry.timeouts_inStats (entry : Entry) (stats : UpstreamStats) :
    (entry.inStats stats).timeoutCount = stats.timeoutCount + entry.timeouts := by
  cases entry <;>
    simp [inStats, timeouts, UpstreamStats.recordSuccess, UpstreamStats.recordFailure,
      UpstreamStats.recordTimeout]

theorem Attempt.timeouts_entry (a : Attempt) :
    a.entry.timeouts = if a.result = .error .timeout then 1 else 0 := by
  unfold Attempt.entry
  cases a.result with
  | ok response => simp [Entry.timeouts]
  | error e => by_cases he : e = .timeout <;> simp [he, Entry.timeouts]

namespace PoolState

/-- From `s` to `s'` the timeouts of upstream `name` go up by `n`, in the
counters and in the registry. -/
def TimeoutsMove (s s' : PoolState) (name : Str) (n : UInt64) : Prop :=
  ∃ now now' reg reg' stats stats', s.pool.metrics = some now ∧ s'.pool.metrics = some now' ∧
    s.pool.observability = some reg ∧ s'.pool.observability = some reg' ∧
    reg.upstreams.get? name = some stats ∧ reg'.upstreams.get? name = some stats' ∧
    now'.upstreamTimeouts = now.upstreamTimeouts + n ∧
    stats'.timeoutCount = stats.timeoutCount + n

section
variable {names : List Str} {start : Metrics} {s s' : PoolState}

/-- A timeout counted is not a timeout not counted. -/
theorem TimeoutsMove.ne {name : Str} (h : s.TimeoutsMove s' name 1) :
    ¬ s.TimeoutsMove s' name 0 := by
  intro h'
  obtain ⟨now, now', _, _, _, _, hm, hm', _, _, _, _, hone, _⟩ := h
  obtain ⟨now₀, now₀', _, _, _, _, hm₀, hm₀', _, _, _, _, hzero, _⟩ := h'
  cases hm.symm.trans hm₀
  cases hm'.symm.trans hm₀'
  rw [hone, UInt64.add_zero] at hzero
  have hnat := congrArg UInt64.toNat hzero
  rw [UInt64.toNat_add] at hnat
  have hlt := now.upstreamTimeouts.toNat_lt
  have hval : (1 : UInt64).toNat = 1 := rfl
  omega

theorem get?_withUpstream_self {reg : ObservabilityRegistry} {name : Str} {stats : UpstreamStats}
    (h : reg.upstreams.get? name = some stats) (f : UpstreamStats → UpstreamStats) :
    (reg.withUpstream name f).upstreams.get? name = some (f stats) := by
  simp [ObservabilityRegistry.withUpstream, h, AssocMap.get?_insert]

/-- An attempt moves both stores by what its entry is. -/
theorem Inv.timeoutsMove (h : Inv names start s) {i idx : Nat} {order : List Nat} {a : Attempt}
    (hcall : s.calls[i]? = some (.trying idx order)) (hs : s.step (.attempt i a) = some s') :
    s.TimeoutsMove s' (names.getD idx []) a.entry.timeouts := by
  have hidx := h.calls idx order (List.mem_of_getElem? hcall) idx List.mem_cons_self
  obtain ⟨now, reg, stats, hm, hobs, _, _, hstats⟩ := h.entry hidx
  rw [step_attempt hcall] at hs
  cases hs
  rw [h.names_eq] at hstats
  refine ⟨now, a.entry.inMetrics now, reg,
    reg.withUpstream (names.getD idx []) a.entry.inStats, stats, a.entry.inStats stats,
    hm, ?_, hobs, ?_, hstats, get?_withUpstream_self hstats _, a.entry.timeouts_inMetrics now,
    a.entry.timeouts_inStats stats⟩
  · rw [UpstreamPool.metrics_noteAttempt, hm]
    rfl
  · rw [UpstreamPool.observability_noteAttempt, hobs, h.names_eq]
    rfl

/-- An attempt whose error is `Timeout` is counted as a timeout. -/
theorem Inv.timeout_counted (h : Inv names start s) {i idx : Nat} {order : List Nat} {a : Attempt}
    (hcall : s.calls[i]? = some (.trying idx order)) (hs : s.step (.attempt i a) = some s')
    (hres : a.result = .error .timeout) : s.TimeoutsMove s' (names.getD idx []) 1 := by
  have hmove := h.timeoutsMove hcall hs
  rw [a.timeouts_entry, if_pos hres] at hmove
  exact hmove

/-- Any other attempt is not. -/
theorem Inv.timeout_not_counted (h : Inv names start s) {i idx : Nat} {order : List Nat}
    {a : Attempt} (hcall : s.calls[i]? = some (.trying idx order))
    (hs : s.step (.attempt i a) = some s') (hres : a.result ≠ .error .timeout) :
    s.TimeoutsMove s' (names.getD idx []) 0 := by
  have hmove := h.timeoutsMove hcall hs
  rw [a.timeouts_entry, if_neg hres] at hmove
  exact hmove

end

end PoolState

/-- **Timeouts are counted as timeouts.** For every run of `query` calls on
a pool and every attempt of it, whose result is the one that the tried
upstream's `query` gives: the attempt is counted as a timeout in both
stores when all of its endpoint attempts timed out, and in neither when
none did, exactly when the upstream is a plain one or not all of them timed
out. -/
theorem timeouts_counted_iff (lib : UpstreamCodec) (names : List Str)
    (policy : UpstreamSelectionPolicy) (start : Metrics) (es : List PoolEvent)
    (s s' : PoolState) (i idx : Nat) (order : List Nat) (a : Attempt)
    (ht : Takes PoolState.step (.init names policy start) es s (.attempt i a) s')
    (hcall : s.calls[i]? = some (.trying idx order))
    (up : Upstream) (io : UpstreamIo) (message : Message)
    (ha : a.result = (up.query lib io message).1) :
    let attempts := (up.query lib io message).2
    ((AllTimedOut attempts → s.TimeoutsMove s' (names.getD idx []) 1) ∧
      (NoneTimedOut attempts → s.TimeoutsMove s' (names.getD idx []) 0)) ↔
      (up.isPlain = true ∨ ¬ AllTimedOut attempts) := by
  intro attempts
  have hinv := PoolState.inv_of_passes ht.source
  cases hplain : up.isPlain with
  | true =>
      cases up with
      | plain up =>
          obtain ⟨hall, hnone⟩ := Upstream.plain_timeout lib io message up
          refine iff_of_true ⟨?_, ?_⟩ (.inl rfl)
          · intro h
            exact hinv.timeout_counted hcall ht.step_eq (ha.trans (hall h))
          · intro h
            exact hinv.timeout_not_counted hcall ht.step_eq (by rw [ha]; exact hnone h)
      | dot up => cases hplain
      | doh up => cases hplain
  | false =>
      -- DoT and DoH fold the timeout of an endpoint into another error
      have hne : a.result ≠ .error .timeout := by
        rw [ha]
        exact Upstream.query_ne_timeout lib io message hplain
      have hzero := hinv.timeout_not_counted hcall ht.step_eq hne
      simp only [Bool.false_eq_true, false_or]
      constructor
      · intro h hall
        exact (h.1 hall).ne hzero
      · intro hnot
        exact ⟨fun hall => absurd hall hnot, fun _ => hzero⟩

/-! Concrete attempts: a network in which nothing is ever answered, and an
encoder for the empty message. -/

/-- A connection that is accepted after a minute. -/
def silentTcp : TcpIo where
  connect := { elapsed := Duration.fromSecs 60, value := .ok () }
  ending := { elapsed := Duration.fromSecs 60, value := [] }

/-- No upstream answers in time. -/
def silentIo : UpstreamIo where
  plain := { udp := { peer := ⟨.v4 0xC0000201#32, 53⟩ }, tcp := silentTcp }
  dot := fun _ => { fresh := silentTcp }
  doh := fun _ _ _ _ => .error { display := "operation timed out".toList, isTimeout := true }

/-- An encoder and no decoder. -/
def sampleCodec : UpstreamCodec where
  toBytes := fun _ => .ok (List.replicate 12 0)
  fromBytes := fun _ => .error []
  serverName := fun _ => .ok ()
  showAddr := fun _ => "192.0.2.1:853".toList

/-- The pool after one call has started. -/
def oneCall : PoolState :=
  { PoolState.init ["dns".toList] .sequential {} with calls := [.trying 0 []] }

theorem takes_oneCall (a : Attempt) :
    ∃ s', Takes PoolState.step (.init ["dns".toList] .sequential {}) [.call 0, .attempt 0 a]
      oneCall (.attempt 0 a) s' :=
  ⟨_, [.call 0], List.prefix_refl _, rfl, PoolState.step_attempt rfl a⟩

/-- A plain upstream that stays silent over UDP and over TCP. -/
theorem timeouts_counted_plain :
    let up : Upstream := .plain (.new "192.0.2.1:53".toList (Duration.fromSecs 5))
    let a : Attempt := { result := (up.query sampleCodec silentIo {}).1 }
    AllTimedOut (up.query sampleCodec silentIo {}).2 ∧
      ∃ s', Takes PoolState.step (.init ["dns".toList] .sequential {}) [.call 0, .attempt 0 a]
          oneCall (.attempt 0 a) s' ∧
        oneCall.TimeoutsMove s' "dns".toList 1 := by
  intro up a
  have hall : AllTimedOut (up.query sampleCodec silentIo {}).2 := by decide +kernel
  obtain ⟨s', ht⟩ := takes_oneCall a
  have hiff := timeouts_counted_iff sampleCodec ["dns".toList] .sequential {} _ oneCall s' 0 0 []
    a ht rfl up silentIo {} rfl
  exact ⟨hall, s', ht, (hiff.mpr (.inl rfl)).1 hall⟩

/-- A DoT and a DoH upstream whose one endpoint stays silent until the
timeout: the attempt is counted as a failure, not as a timeout. -/
theorem timeout_counted_as_failure :
    let endpoints : List SocketAddr := [⟨.v4 0xC0000201#32, 853⟩]
    let dot : Upstream := .dot
      ⟨"dns.example:853".toList, "dns.example".toList, endpoints, Duration.fromSecs 5⟩
    let doh : Upstream := .doh
      ⟨"https://dns.example/dns-query".toList, Duration.fromSecs 5, endpoints⟩
    ∀ up ∈ [dot, doh], AllTimedOut (up.query sampleCodec silentIo {}).2 ∧
      ∃ a s', a.result = (up.query sampleCodec silentIo {}).1 ∧
        Takes PoolState.step (.init ["dns".toList] .sequential {}) [.call 0, .attempt 0 a]
          oneCall (.attempt 0 a) s' ∧
        oneCall.TimeoutsMove s' "dns".toList 0 ∧ ¬ oneCall.TimeoutsMove s' "dns".toList 1 := by
  intro endpoints dot doh up hup
  have hall : AllTimedOut (up.query sampleCodec silentIo {}).2 := by
    simp only [List.mem_cons, List.not_mem_nil, or_false] at hup
    rcases hup with rfl | rfl <;> decide +kernel
  have hplain : up.isPlain = false := by
    simp only [List.mem_cons, List.not_mem_nil, or_false] at hup
    rcases hup with rfl | rfl <;> rfl
  let a : Attempt := { result := (up.query sampleCodec silentIo {}).1 }
  obtain ⟨s', ht⟩ := takes_oneCall a
  have hcall : oneCall.calls[0]? = some (.trying 0 []) := rfl
  have hzero : oneCall.TimeoutsMove s' "dns".toList 0 :=
    (PoolState.inv_of_passes ht.source).timeout_not_counted hcall ht.step_eq
      (Upstream.query_ne_timeout sampleCodec silentIo {} hplain)
  exact ⟨hall, a, s', rfl, ht, hzero, fun hone => hone.ne hzero⟩

end Dotdns
