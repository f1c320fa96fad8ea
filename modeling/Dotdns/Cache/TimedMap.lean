import Dotdns.Cache.Basic

/-!
# Cache — refinement of an abstract timed map

What the cache is for, said without a map, a loop or a lock: a LOG of the
calls made so far, and for each key the last insert whose entry is still
in place (`lastStored`). An entry leaves the log's view when it is
overwritten, flushed, dropped for capacity, or found expired by a `get`.

`Refines` relates a cache state to that view; `refines_step` is the
simulation step and `refines_exec` the whole-sequence form. The gauge and
the eviction counter ride along (`Gauged`).
-/

namespace Dotdns

open Lib

/-! ## The abstract side -/

/-- The lifetime of a response: its least record TTL, raised to `min_ttl`
and then lowered to `max_ttl`; none without records. -/
def lifetime (cfg : CacheConfig) (response : Message) : Option Nat :=
  (response.records.map fun r => r.ttl.toNat).min?.map fun secs =>
    let raised := max (Duration.fromSecs secs) (cfg.minTtl.getD 0)
    match cfg.maxTtl with
    | some hi => min raised hi
    | none => raised

/-- The calls a cache gets. -/
inductive CacheOp where
  | insert (query response : Message) (pick : Nat)
  | get (query : Message)
  | flush

/-- A call, and the clock when it is made. -/
structure CacheCall where
  now : Nat
  op : CacheOp

/-- The calls made so far, oldest first, each with the key whose entry it
dropped for capacity. -/
abbrev CacheLog := List (CacheCall × Option CacheKey)

/-- For each key, the time and response of its entry. -/
abbrev TimedMap := CacheKey → Option (Nat × Message)

/-- The key is gone. -/
def TimedMap.drop (tm : TimedMap) (k : CacheKey) : TimedMap :=
  fun k' => if k == k' then none else tm k'

/-- The key has a new value. -/
def TimedMap.put (tm : TimedMap) (k : CacheKey) (v : Nat × Message) : TimedMap :=
  fun k' => if k == k' then some v else tm k'

/-- One logged call. -/
def TimedMap.apply (cfg : CacheConfig) (tm : TimedMap) :
    CacheCall × Option CacheKey → TimedMap
  | (⟨now, .insert query response _⟩, dropped) =>
      match CacheKey.fromMessage query, response.records with
      | none, _ => tm
      | some _, [] => tm
      | some k, _ :: _ => (dropped.elim tm tm.drop).put k (now, response)
  | (⟨now, .get query⟩, _) =>
      match CacheKey.fromMessage query with
      | none => tm
      | some k =>
          match tm k with
          | none => tm
          | some (t₀, r) =>
              if (lifetime cfg r).any (· ≤ now - t₀) then tm.drop k else tm
  | (⟨_, .flush⟩, _) => fun _ => none

/-- The last insert for each key whose entry the log has not seen
overwritten, flushed, dropped for capacity or found expired since. -/
def lastStored (cfg : CacheConfig) (log : CacheLog) : TimedMap :=
  log.foldl (TimedMap.apply cfg) fun _ => none

/-! ## The code side -/

/-- A cache and the recorder it reports to. -/
structure CacheState where
  cache : Cache Unit
  metrics : Metrics

namespace CacheState

/-- A new cache. -/
def new (cfg : CacheConfig) (m : Metrics) : CacheState :=
  let r := Cache.new cfg m
  ⟨r.1, r.2⟩

/-- One call. -/
def step (s : CacheState) (call : CacheCall) : CacheState :=
  match call.op with
  | .insert query response pick =>
      let r := s.cache.insert s.metrics call.now pick query response ()
      ⟨r.1, r.2⟩
  | .get query =>
      let r := s.cache.get s.metrics call.now query
      ⟨r.2.1, r.2.2⟩
  | .flush =>
      let r := s.cache.flush s.metrics
      ⟨r.1, r.2⟩

/-- The key whose entry the call drops for capacity: an insert that gets as
far as storing drops its victim. -/
def dropped (s : CacheState) (call : CacheCall) : Option CacheKey :=
  match call.op with
  | .insert query response pick =>
      if (CacheKey.fromMessage query).isSome
          && (Cache.entryTtl s.cache.config response).isSome
      then s.cache.victim pick else none
  | _ => none

/-- Run the calls, keeping the log. -/
def exec (s : CacheState) (calls : List CacheCall) : CacheState × CacheLog :=
  calls.foldl (fun acc call => (acc.1.step call, acc.2 ++ [(call, acc.1.dropped call)]))
    (s, [])

theorem exec_concat (s : CacheState) (calls : List CacheCall) (call : CacheCall) :
    s.exec (calls ++ [call]) =
      ((s.exec calls).1.step call,
        (s.exec calls).2 ++ [(call, (s.exec calls).1.dropped call)]) := by
  simp [exec]

end CacheState

/-! ## The lifetime -/

theorem minTtlLoop_eq (rs : List Record) (acc : Nat × Bool) :
    Cache.minTtlLoop acc rs =
      ((rs.map fun r => r.ttl.toNat).foldl min acc.1, acc.2 || !rs.isEmpty) := by
  induction rs generalizing acc with
  | nil => simp [Cache.minTtlLoop]
  | cons r rs ih =>
      have := ih (min acc.1 r.ttl.toNat, true)
      simp only [Cache.minTtlLoop, List.foldl_cons] at this ⊢
      rw [this]
      simp

/-- Raising by comparison is `max`; no configured minimum is `0`. -/
theorem raiseToMin_eq (cfg : CacheConfig) (t : Nat) :
    Cache.raiseToMin cfg t = max t (cfg.minTtl.getD 0) := by
  unfold Cache.raiseToMin
  cases cfg.minTtl with
  | none => simp
  | some lo => simp only [Option.getD_some]; split <;> omega

/-- The three loops compute the minimum over the three sections; the
`u64::MAX` they start from never survives a record. -/
theorem entryTtl_eq (cfg : CacheConfig) (response : Message) :
    Cache.entryTtl cfg response = lifetime cfg response := by
  unfold Cache.entryTtl lifetime Message.records
  simp only [minTtlLoop_eq, ← List.foldl_append, ← List.map_append]
  have hany : (false || !response.answers.isEmpty || !response.nameServers.isEmpty
      || !response.additionals.isEmpty)
        = !(response.answers ++ response.nameServers ++ response.additionals).isEmpty := by
    cases response.answers <;> cases response.nameServers <;> simp
  rw [hany]
  cases hrs : response.answers ++ response.nameServers ++ response.additionals with
  | nil => simp
  | cons r rs =>
      -- a TTL has 32 bits, so the first record already replaces `u64::MAX`
      have hr : min (2 ^ 64 - 1) r.ttl.toNat = r.ttl.toNat := by
        have := r.ttl.toNat_lt
        omega
      simp only [List.isEmpty_cons, Bool.not_false, if_true, List.map_cons, List.foldl_cons,
        hr, List.min?_cons', Option.map_some, Option.some.injEq]
      rw [raiseToMin_eq]
      unfold Cache.lowerToMax
      cases cfg.maxTtl with
      | none => rfl
      | some hi => simp only; split <;> omega

/-! ## The simulation -/

/-- The cache holds, for every key, the entry the abstract view names, with
the lifetime of its response. -/
structure Refines (cfg : CacheConfig) (c : Cache Unit) (tm : TimedMap) : Prop where
  config : c.config = cfg
  entries : ∀ k, (c.entries.get? k).map (fun e => (e.insertedAt, e.message)) = tm k
  ttl : ∀ k e, c.entries.get? k = some e → lifetime cfg e.message = some e.ttl

theorem refines_new (cfg : CacheConfig) (m : Metrics) :
    Refines cfg (CacheState.new cfg m).cache fun _ => none where
  config := rfl
  entries := fun _ => rfl
  ttl := fun k e h => by
    have : (none : Option (CacheEntry Unit)) = some e := h
    cases this

theorem entryTtl_eq_none_iff {cfg : CacheConfig} {response : Message} :
    Cache.entryTtl cfg response = none ↔ response.records = [] := by
  rw [entryTtl_eq, lifetime, Option.map_eq_none_iff, List.min?_eq_none_iff,
    List.map_eq_nil_iff]

theorem refines_insert {cfg : CacheConfig} {s : CacheState} {tm : TimedMap}
    (h : Refines cfg s.cache tm) (now pick : Nat) (query response : Message) :
    Refines cfg (s.step ⟨now, .insert query response pick⟩).cache
      (tm.apply cfg (⟨now, .insert query response pick⟩,
        s.dropped ⟨now, .insert query response pick⟩)) := by
  obtain ⟨c, m⟩ := s
  obtain ⟨hcfg, hent, httl⟩ := h
  simp only [CacheState.step, CacheState.dropped, TimedMap.apply]
  cases hk : CacheKey.fromMessage query with
  | none =>
      rw [Cache.insert_of_no_key hk]
      exact ⟨hcfg, hent, httl⟩
  | some key =>
      cases ht : Cache.entryTtl c.config response with
      | none =>
          rw [Cache.insert_of_no_records ht, entryTtl_eq_none_iff.mp ht]
          exact ⟨hcfg, hent, httl⟩
      | some ttl =>
          have hlife : lifetime cfg response = some ttl := by
            rw [← entryTtl_eq, ← hcfg, ht]
          cases hrs : response.records with
          | nil => rw [entryTtl_eq_none_iff.mpr hrs] at ht; cases ht
          | cons r rs =>
              refine ⟨by simpa using hcfg, ?_, ?_⟩
              · intro k
                rw [Cache.insert_entries hk ht]
                simp only [Option.isSome_some, Bool.and_self, if_true, TimedMap.put]
                -- the new entry wins over the victim, which may have the same key
                by_cases hkk : key == k
                · simp [hkk]
                · simp only [hkk, if_false, Bool.false_eq_true]
                  cases hv : c.victim pick with
                  | none => simpa using hent k
                  | some v =>
                      by_cases hvk : v == k
                      · simp [TimedMap.drop, hvk]
                      · simpa [TimedMap.drop, hvk] using hent k
              · intro k e he
                rcases Cache.insert_entries_cases he with ⟨_, ttl', _, _, ht', rfl⟩ | he
                · rw [ht] at ht'
                  cases ht'
                  exact hlife
                · exact httl k e he

theorem refines_get {cfg : CacheConfig} {s : CacheState} {tm : TimedMap}
    (h : Refines cfg s.cache tm) (now : Nat) (query : Message) :
    Refines cfg (s.step ⟨now, .get query⟩).cache
      (tm.apply cfg (⟨now, .get query⟩, s.dropped ⟨now, .get query⟩)) := by
  obtain ⟨c, m⟩ := s
  obtain ⟨hcfg, hent, httl⟩ := h
  simp only [CacheState.step, TimedMap.apply]
  refine ⟨by simpa using hcfg, ?_, fun k e he => httl k e (Cache.get_entries_subset he)⟩
  intro k
  rcases Cache.lookup_cases c query now with hl | ⟨key, e, hk, he, hexp⟩ | ⟨e, hl, hlive⟩
  · rw [Cache.get_of_lookup_none hl]
    cases hk : CacheKey.fromMessage query with
    | none => exact hent k
    | some key =>
        have he : c.entries.get? key = none := by simpa [Cache.lookup, hk] using hl
        have htm : tm key = none := by simpa [he] using (hent key).symm
        simpa [htm] using hent k
  · -- the abstract view drops the key too: both see the same age and lifetime
    rw [Cache.get_of_expired hk he hexp]
    have htm : tm key = some (e.insertedAt, e.message) := by
      simpa [he] using (hent key).symm
    have hlife : (lifetime cfg e.message).any (· ≤ now - e.insertedAt) = true := by
      simpa [httl key e he] using hexp
    simp only [hk, htm, hlife, if_true, AssocMap.get?_erase, TimedMap.drop]
    by_cases hkk : key == k
    · simp [hkk]
    · simpa [hkk] using hent k
  · obtain ⟨key, hk, he⟩ := Option.bind_eq_some_iff.mp hl
    rw [Cache.get_of_live hl hlive]
    have htm : tm key = some (e.insertedAt, e.message) := by
      simpa [he] using (hent key).symm
    have hlife : (lifetime cfg e.message).any (· ≤ now - e.insertedAt) = false := by
      simpa [httl key e he] using hlive
    simpa [hk, htm, hlife] using hent k

/-- **The simulation step**: whatever the call, the cache after it holds
what the abstract view holds after it. -/
theorem refines_step {cfg : CacheConfig} {s : CacheState} {tm : TimedMap}
    (h : Refines cfg s.cache tm) (call : CacheCall) :
    Refines cfg (s.step call).cache (tm.apply cfg (call, s.dropped call)) := by
  obtain ⟨now, op⟩ := call
  cases op with
  | insert query response pick => exact refines_insert h now pick query response
  | get query => exact refines_get h now query
  | flush => exact ⟨h.config, fun _ => rfl, fun _ _ he => by cases he⟩

theorem refines_exec (cfg : CacheConfig) (m : Metrics) (calls : List CacheCall) :
    Refines cfg ((CacheState.new cfg m).exec calls).1.cache
      (lastStored cfg ((CacheState.new cfg m).exec calls).2) := by
  induction calls using List.reverseRecOn with
  | nil => exact refines_new cfg m
  | append_singleton calls call ih =>
      rw [CacheState.exec_concat]
      simpa [lastStored] using refines_step ih call

/-! ## The gauge and the eviction counter -/

namespace CacheState

/-- The `cache_entries` gauge shows the number of stored entries. -/
def Gauged (s : CacheState) : Prop :=
  s.metrics.cacheEntries = UInt64.ofNat s.cache.entries.size

theorem gauged_step {s : CacheState} (h : s.Gauged) (call : CacheCall) :
    (s.step call).Gauged := by
  obtain ⟨c, m⟩ := s
  obtain ⟨now, op⟩ := call
  cases op with
  | insert query response pick =>
      simp only [step, Gauged, Cache.insert]
      cases CacheKey.fromMessage query with
      | none => exact h
      | some key =>
          cases Cache.entryTtl c.config response with
          | none => exact h
          | some ttl => rfl
  | get query =>
      rcases Cache.lookup_cases c query now with hl | ⟨key, e, hk, he, hexp⟩ | ⟨e, hl, hlive⟩
      · simpa only [step, Gauged, Cache.get_of_lookup_none hl] using h
      · simp only [step, Gauged, Cache.get_of_expired hk he hexp]
        rfl
      · simpa only [step, Gauged, Cache.get_of_live hl hlive] using h
  | flush => rfl

/-- A call adds one to `cache_evictions` exactly when it drops an entry for
capacity. -/
theorem evictions_step (s : CacheState) (call : CacheCall) :
    (s.step call).metrics.cacheEvictions =
      s.metrics.cacheEvictions + if (s.dropped call).isSome then 1 else 0 := by
  obtain ⟨c, m⟩ := s
  obtain ⟨now, op⟩ := call
  cases op with
  | insert query response pick =>
      simp only [step, dropped, Cache.insert, Cache.makeRoom]
      cases CacheKey.fromMessage query with
      | none => simp
      | some key =>
          cases Cache.entryTtl c.config response with
          | none => simp
          | some ttl =>
              cases c.victim pick with
              | none => simp [Cache.updateMetric, Metrics.setCacheEntries]
              | some v =>
                  simp [Cache.updateMetric, Metrics.setCacheEntries,
                    Metrics.recordCacheEviction]
  | get query =>
      rcases Cache.lookup_cases c query now with hl | ⟨key, e, hk, he, hexp⟩ | ⟨e, hl, hlive⟩
      · simp [step, dropped, Cache.get_of_lookup_none hl]
      · simp [step, dropped, Cache.get_of_expired hk he hexp, Cache.updateMetric,
          Metrics.setCacheEntries]
      · simp [step, dropped, Cache.get_of_live hl hlive]
  | flush => simp [step, dropped, Cache.flush, Cache.updateMetric, Metrics.setCacheEntries]

theorem gauged_exec (cfg : CacheConfig) (m : Metrics) (calls : List CacheCall) :
    ((new cfg m).exec calls).1.Gauged := by
  induction calls using List.reverseRecOn with
  | nil => rfl
  | append_singleton calls call ih =>
      rw [exec_concat]
      exact gauged_step ih call

theorem evictions_exec (cfg : CacheConfig) (m : Metrics) (calls : List CacheCall) :
    ((new cfg m).exec calls).1.metrics.cacheEvictions =
      m.cacheEvictions + UInt64.ofNat (((new cfg m).exec calls).2.countP fun e => e.2.isSome) := by
  induction calls using List.reverseRecOn with
  | nil => simp [exec, new, Cache.new, Metrics.setCacheEntries]
  | append_singleton calls call ih =>
      rw [exec_concat, evictions_step, ih, List.countP_append, UInt64.ofNat_add, UInt64.add_assoc]
      cases (((new cfg m).exec calls).1.dropped call) <;> simp

theorem log_calls (s : CacheState) (calls : List CacheCall) :
    (s.exec calls).2.map Prod.fst = calls := by
  induction calls using List.reverseRecOn with
  | nil => rfl
  | append_singleton calls call ih => rw [exec_concat, List.map_append, ih]; rfl

/-- What a call drops for capacity was stored at that moment. -/
theorem dropped_stored {s : CacheState} {call : CacheCall} {v : CacheKey}
    (h : s.dropped call = some v) : (s.cache.entries.get? v).isSome := by
  unfold dropped at h
  split at h
  · split at h
    · exact Cache.victim_mem h
    · cases h
  · cases h

theorem exec_prefix {s : CacheState} {calls : List CacheCall} {pre : CacheLog}
    {call : CacheCall} {d : Option CacheKey} (h : pre ++ [(call, d)] <+: (s.exec calls).2) :
    ∃ before, (s.exec before).2 = pre ∧ (s.exec before).1.dropped call = d := by
  induction calls using List.reverseRecOn with
  | nil => simp [exec] at h
  | append_singleton calls last ih =>
      rw [exec_concat] at h
      rcases List.prefix_concat_iff.mp h with heq | h
      · obtain ⟨hpre, hlast⟩ := List.append_inj' heq rfl
        cases hlast
        exact ⟨calls, hpre.symm, rfl⟩
      · exact ih h

end CacheState

/-- **The cache is the timed map.** After any sequence of calls, with any
eviction victims: a `get` answers exactly when the key's last insert that
is still stored is younger than its lifetime, with that response and the
seconds left; the keys held are those of the abstract view; the gauge is
their number; and the eviction counter has grown by the number of entries
dropped for capacity, each of which was stored when it was dropped. -/
theorem cache_refines_timedMap (cfg : CacheConfig) (m : Metrics) (calls : List CacheCall) :
    let s := ((CacheState.new cfg m).exec calls).1
    let log := ((CacheState.new cfg m).exec calls).2
    log.map Prod.fst = calls ∧
    (∀ (query : Message) (t : Nat) (msg : Message),
      (s.cache.get s.metrics t query).1 = some (msg, ()) ↔
        ∃ key t₀ r life, CacheKey.fromMessage query = some key ∧
          lastStored cfg log key = some (t₀, r) ∧ r.records ≠ [] ∧
          lifetime cfg r = some life ∧ t - t₀ < life ∧
          msg = r.withTtl (UInt32.ofNat (Duration.asSecs (life - (t - t₀))))) ∧
    (∀ k, (s.cache.entries.get? k).isSome = (lastStored cfg log k).isSome) ∧
    s.metrics.cacheEntries = UInt64.ofNat s.cache.entries.size ∧
    s.metrics.cacheEvictions = m.cacheEvictions + UInt64.ofNat (log.countP fun e => e.2.isSome) ∧
    ∀ pre call v, pre ++ [(call, some v)] <+: log → (lastStored cfg pre v).isSome := by
  intro s log
  have href := refines_exec cfg m calls
  refine ⟨CacheState.log_calls _ _, ?_, ?_, CacheState.gauged_exec cfg m calls,
    CacheState.evictions_exec cfg m calls, ?_⟩
  -- a hit is what was stored last for the key, while it lives
  · intro query t msg
    rw [Cache.get_eq_some_iff]
    constructor
    · intro h
      obtain ⟨e, hl, hlive, _, rfl⟩ := h
      obtain ⟨key, hk, he⟩ := Option.bind_eq_some_iff.mp hl
      have hlife := href.ttl key e he
      have hrec : e.message.records ≠ [] := by
        intro hnil
        rw [← entryTtl_eq, entryTtl_eq_none_iff.mpr hnil] at hlife
        cases hlife
      refine ⟨key, e.insertedAt, e.message, e.ttl, hk, ?_, hrec, hlife, hlive, rfl⟩
      rw [← href.entries key, he]
      rfl
    · intro h
      obtain ⟨key, t₀, r, life, hk, hstored, _, hlife, hlt, rfl⟩ := h
      rw [← href.entries key] at hstored
      obtain ⟨e, he, heq⟩ := Option.map_eq_some_iff.mp hstored
      cases heq
      have httl : life = e.ttl := by
        have := href.ttl key e he
        rw [hlife] at this
        exact Option.some.inj this
      subst httl
      exact ⟨e, by simp [Cache.lookup, hk, he, s], hlt, rfl, rfl⟩
  · intro k
    rw [← href.entries k, Option.isSome_map]
  -- only what is stored is dropped
  · intro pre call v hpre
    obtain ⟨before, rfl, hdrop⟩ := CacheState.exec_prefix hpre
    rw [← (refines_exec cfg m before).entries v, Option.isSome_map]
    exact CacheState.dropped_stored hdrop

end Dotdns
