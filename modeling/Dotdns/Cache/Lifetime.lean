import Dotdns.Cache.Capacity

/-!
# Cache — lifetimes and the TTLs of a hit

What `insert` makes of the record TTLs and the two configured bounds, and
what `get` writes back into the records. `Config::validate` looks at
neither bound: it takes a `min_ttl` above `max_ttl`, and a `min_ttl` that
does not fit the 32 bits of a record TTL.

The two headlines say which configurations keep a lifetime within its
bounds, and which keep the TTLs of a hit exact.
-/

namespace Dotdns

open Lib

/-! ## The clamp -/

/-- The two bounds, where both are configured, are compatible. -/
def CacheConfig.ordered (cfg : CacheConfig) : Bool :=
  cfg.minTtl.all fun lo => cfg.maxTtl.all fun hi => decide (lo ≤ hi)

/-- `ttl` lies within the bounds that are configured. -/
structure CacheConfig.Within (cfg : CacheConfig) (ttl : Nat) : Prop where
  min : ∀ lo, cfg.minTtl = some lo → lo ≤ ttl
  max : ∀ hi, cfg.maxTtl = some hi → ttl ≤ hi

/-- The smallest record TTL of a response. -/
def Message.leastTtl (response : Message) : Option Nat :=
  (response.records.map fun r => r.ttl.toNat).min?.map Duration.fromSecs

/-- `ttl` is a lifetime for `response` that obeys the bounds, and the
smallest record TTL itself where that obeys them. -/
structure Clamped (cfg : CacheConfig) (response : Message) (ttl : Nat) : Prop where
  within : cfg.Within ttl
  least : ∀ least, response.leastTtl = some least → cfg.Within least → ttl = least

theorem lifetime_eq (cfg : CacheConfig) (response : Message) :
    lifetime cfg response = response.leastTtl.map fun least =>
      match cfg.maxTtl with
      | some hi => min (max least (cfg.minTtl.getD 0)) hi
      | none => max least (cfg.minTtl.getD 0) := by
  unfold lifetime Message.leastTtl
  rw [Option.map_map]
  rfl

theorem lifetime_cases {cfg : CacheConfig} {response : Message} {ttl : Nat}
    (h : lifetime cfg response = some ttl) :
    ∃ least, response.leastTtl = some least ∧
      ((cfg.maxTtl = none ∧ ttl = max least (cfg.minTtl.getD 0)) ∨
        ∃ hi, cfg.maxTtl = some hi ∧ ttl = min (max least (cfg.minTtl.getD 0)) hi) := by
  rw [lifetime_eq] at h
  obtain ⟨least, hleast, httl⟩ := Option.map_eq_some_iff.mp h
  refine ⟨least, hleast, ?_⟩
  cases hmax : cfg.maxTtl with
  | none =>
      simp only [hmax] at httl
      exact .inl ⟨rfl, httl.symm⟩
  | some hi =>
      simp only [hmax] at httl
      exact .inr ⟨hi, rfl, httl.symm⟩

/-- A record TTL has 32 bits. -/
theorem leastTtl_lt {response : Message} {least : Nat} (h : response.leastTtl = some least) :
    least < Duration.fromSecs (2 ^ 32) := by
  obtain ⟨secs, hmin, rfl⟩ := Option.map_eq_some_iff.mp h
  obtain ⟨r, _, hr⟩ := List.mem_map.mp (List.min?_mem hmin)
  have hlt := r.ttl.toNat_lt
  unfold Duration.fromSecs
  omega

/-- No configured minimum is a minimum of zero. -/
theorem CacheConfig.within_iff {cfg : CacheConfig} {ttl : Nat} :
    cfg.Within ttl ↔
      cfg.minTtl.getD 0 ≤ ttl ∧ ∀ hi, cfg.maxTtl = some hi → ttl ≤ hi := by
  constructor
  · intro h
    refine ⟨?_, h.max⟩
    cases hlo : cfg.minTtl with
    | none => simp
    | some lo => exact h.min lo hlo
  · intro h
    refine ⟨?_, h.2⟩
    intro lo hlo
    simpa [hlo] using h.1

theorem CacheConfig.ordered_iff {cfg : CacheConfig} :
    cfg.ordered = true ↔ ∀ hi, cfg.maxTtl = some hi → cfg.minTtl.getD 0 ≤ hi := by
  unfold CacheConfig.ordered
  cases cfg.minTtl <;> cases cfg.maxTtl <;> simp

/-- Raising and then lowering is a clamp exactly when the bounds are
compatible. -/
theorem clamped_iff_ordered {cfg : CacheConfig} {response : Message} {ttl : Nat}
    (h : lifetime cfg response = some ttl) : Clamped cfg response ttl ↔ cfg.ordered = true := by
  obtain ⟨least, hleast, httl⟩ := lifetime_cases h
  rw [CacheConfig.ordered_iff]
  constructor
  · intro hcl hi hhi
    have hin := CacheConfig.within_iff.mp hcl.within
    exact Nat.le_trans hin.1 (hin.2 hi hhi)
  · intro hord
    refine ⟨CacheConfig.within_iff.mpr ?_, ?_⟩
    · rcases httl with ⟨hmax, rfl⟩ | ⟨hi, hmax, rfl⟩
      · refine ⟨by omega, ?_⟩
        intro hi hhi
        cases hmax.symm.trans hhi
      · have hle := hord hi hmax
        refine ⟨by omega, ?_⟩
        intro hi' hhi
        cases hmax.symm.trans hhi
        omega
    · intro least' hleast' hin
      obtain rfl : least = least' := by simpa [hleast] using hleast'
      obtain ⟨hmin, hle⟩ := CacheConfig.within_iff.mp hin
      rcases httl with ⟨_, rfl⟩ | ⟨hi, hmax, rfl⟩
      · omega
      · have hhi := hle hi hmax
        omega

namespace Cache

variable {α : Type*}

/-- What an insert that stores leaves under its key. -/
theorem lookup_insert {query response : Message} (h : stores query response = true)
    (c : Cache α) (m : Metrics) (now pick : Nat) (o : α) :
    ∃ ttl, lifetime c.config response = some ttl ∧
      (c.insert m now pick query response o).1.lookup query = some ⟨response, now, ttl, o⟩ := by
  obtain ⟨key, hkey⟩ := exists_key_of_stores h
  obtain ⟨ttl, httl⟩ := exists_ttl_of_stores h c.config
  refine ⟨ttl, by rw [← entryTtl_eq, httl], ?_⟩
  rw [lookup, hkey, Option.bind_some, insert_entries hkey httl, if_pos BEq.rfl]

end Cache

/-- **The stored lifetime.** For every configuration, cache state and
response with a record: an insert stores an entry, and its lifetime lies
between the configured bounds and is the smallest record TTL where that
does, exactly when `min_ttl` is not above `max_ttl`. -/
theorem stored_lifetime_iff {α : Type*} (c : Cache α) (m : Metrics) (now pick : Nat)
    (query response : Message) (o : α) (h : Cache.stores query response = true) :
    ∃ e, (c.insert m now pick query response o).1.lookup query = some e ∧
      (Clamped c.config response e.ttl ↔ c.config.ordered = true) := by
  obtain ⟨ttl, httl, hlookup⟩ := Cache.lookup_insert h c m now pick o
  exact ⟨_, hlookup, clamped_iff_ordered httl⟩

/-- As in the example configuration: 300 seconds lie between the bounds. -/
theorem stored_lifetime_example :
    let cfg : CacheConfig :=
      { minTtl := some (Duration.fromSecs 5), maxTtl := some (Duration.fromSecs 3600) }
    let query : Message := { queries := [⟨⟨[labelOf "example", labelOf "org"], true⟩, .A, .IN⟩] }
    ∃ e, ((⟨cfg, .empty⟩ : Cache Unit).insert {} 0 0 query (oneRecord query) ()).1.lookup query =
        some e ∧ Clamped cfg (oneRecord query) e.ttl := by
  intro cfg query
  obtain ⟨e, hlookup, hiff⟩ :=
    stored_lifetime_iff ⟨cfg, .empty⟩ {} 0 0 query (oneRecord query) () (by decide)
  exact ⟨e, hlookup, hiff.mpr (by decide)⟩

/-- `validate` accepts `min_ttl = 10m` with `max_ttl = 1m`; a response of
five minutes then lives one, below the configured minimum. -/
theorem lifetime_below_minimum :
    let upstream : UpstreamEntry := { name := "mock".toList, address := "127.0.0.1:53".toList }
    let config : Config :=
      { serverBinds := [⟨.v4 0#32, 853⟩], upstreams := [upstream],
        cache := { minTtl := some (Duration.fromSecs 600), maxTtl := some (Duration.fromSecs 60) } }
    let query : Message := { queries := [⟨⟨[labelOf "example", labelOf "org"], true⟩, .A, .IN⟩] }
    config.validate (fun _ => false) (fun _ => false) = .ok () ∧
      ∃ e, ((⟨config.cache, .empty⟩ : Cache Unit).insert {} 0 0 query
          (oneRecord query) ()).1.lookup query = some e ∧
        e.ttl = Duration.fromSecs 60 ∧ ¬ config.cache.Within e.ttl := by
  intro upstream config query
  have hstores : Cache.stores query (oneRecord query) = true := by decide
  obtain ⟨ttl, httl, hlookup⟩ :=
    Cache.lookup_insert hstores (⟨config.cache, .empty⟩ : Cache Unit) {} 0 0 ()
  have hsixty : lifetime config.cache (oneRecord query) = some (Duration.fromSecs 60) := by
    decide +kernel
  obtain rfl : Duration.fromSecs 60 = ttl := Option.some.inj (hsixty.symm.trans httl)
  refine ⟨by decide +kernel, _, hlookup, rfl, ?_⟩
  intro hin
  have hle : Duration.fromSecs 600 ≤ Duration.fromSecs 60 := hin.min _ rfl
  revert hle
  decide

/-! ## The TTLs of a hit -/

/-- The lifetime that is left at `now`. -/
def CacheEntry.remaining {α : Type*} (e : CacheEntry α) (now : Nat) : Nat :=
  e.ttl - (now - e.insertedAt)

/-- At `now` the cache answers `query` from the entry `e`, with `msg`. -/
structure CacheState.Hit (s : CacheState) (query : Message) (now : Nat) (e : CacheEntry Unit)
    (msg : Message) : Prop where
  found : s.cache.lookup query = some e
  answer : (s.cache.get s.metrics now query).1 = some (msg, ())

/-- Every record carries `secs` as its TTL. -/
def Message.TtlsAre (msg : Message) (secs : Nat) : Prop := ∀ r ∈ msg.records, r.ttl.toNat = secs

/-- No lifetime reaches `2^32` seconds: `min_ttl` stays below, or `max_ttl`
does. -/
def CacheConfig.ttlsFit (cfg : CacheConfig) : Bool :=
  (cfg.minTtl.all fun lo => decide (lo < Duration.fromSecs (2 ^ 32))) ||
    cfg.maxTtl.any fun hi => decide (hi < Duration.fromSecs (2 ^ 32))

theorem lifetime_lt {cfg : CacheConfig} {response : Message} {ttl : Nat}
    (hfit : cfg.ttlsFit = true) (h : lifetime cfg response = some ttl) :
    ttl < Duration.fromSecs (2 ^ 32) := by
  obtain ⟨least, hleast, httl⟩ := lifetime_cases h
  have hlt := leastTtl_lt hleast
  rw [CacheConfig.ttlsFit, Bool.or_eq_true] at hfit
  rcases hfit with hlo | hhi
  · have hmin : cfg.minTtl.getD 0 < Duration.fromSecs (2 ^ 32) := by
      cases hcfg : cfg.minTtl with
      | none => decide
      | some lo => simpa [hcfg] using hlo
    rcases httl with ⟨_, rfl⟩ | ⟨hi, _, rfl⟩
    · omega
    · omega
  · obtain ⟨hi, hcfg, hhi⟩ := (Option.any_eq_true _ _).mp hhi
    rw [decide_eq_true_eq] at hhi
    rcases httl with ⟨hmax, _⟩ | ⟨hi', hmax, rfl⟩
    · cases hmax.symm.trans hcfg
    · cases hmax.symm.trans hcfg
      omega

/-- Where `ttlsFit` fails, every lifetime is at least `2^32` seconds. -/
theorem le_lifetime {cfg : CacheConfig} {response : Message} {ttl : Nat}
    (hfit : cfg.ttlsFit = false) (h : lifetime cfg response = some ttl) :
    Duration.fromSecs (2 ^ 32) ≤ ttl := by
  obtain ⟨least, _, httl⟩ := lifetime_cases h
  rw [CacheConfig.ttlsFit, Bool.or_eq_false_iff] at hfit
  obtain ⟨hlo, hhi⟩ := hfit
  have hmin : Duration.fromSecs (2 ^ 32) ≤ cfg.minTtl.getD 0 := by
    cases hcfg : cfg.minTtl with
    | none => simp [hcfg] at hlo
    | some lo => simpa [hcfg] using hlo
  rcases httl with ⟨_, rfl⟩ | ⟨hi, hmax, rfl⟩
  · omega
  · have hle : Duration.fromSecs (2 ^ 32) ≤ hi := by simpa [hmax] using hhi
    omega

theorem asSecs_lt {d : Nat} (h : d < Duration.fromSecs (2 ^ 32)) : Duration.asSecs d < 2 ^ 32 := by
  unfold Duration.fromSecs at h
  unfold Duration.asSecs
  omega

theorem le_asSecs {d : Nat} (h : Duration.fromSecs (2 ^ 32) ≤ d) : 2 ^ 32 ≤ Duration.asSecs d := by
  unfold Duration.fromSecs at h
  unfold Duration.asSecs
  omega

theorem ttl_of_mem_withTtl {msg : Message} {ttl : UInt32} {r : Record}
    (h : r ∈ (msg.withTtl ttl).records) : r.ttl = ttl := by
  have hset : (msg.withTtl ttl).records = msg.records.map (Record.setTtl ttl) := by
    simp [Message.records, Message.withTtl]
  rw [hset] at h
  obtain ⟨r', _, rfl⟩ := List.mem_map.mp h
  rfl

namespace CacheState

/-- A hit carries what is left of the entry, as far as 32 bits go. -/
theorem Hit.message_eq {s : CacheState} {query msg : Message} {now : Nat} {e : CacheEntry Unit}
    (h : s.Hit query now e msg) :
    msg = e.message.withTtl (UInt32.ofNat (Duration.asSecs (e.remaining now))) := by
  obtain ⟨e', hfound, _, _, hmsg⟩ := Cache.get_eq_some_iff.mp h.answer
  obtain rfl : e = e' := by simpa [h.found] using hfound
  exact hmsg

/-- An entry just stored answers from then on, for its lifetime. -/
theorem hit_insert {query response : Message} (h : Cache.stores query response = true)
    (s : CacheState) (t₀ pick : Nat) :
    ∃ ttl, lifetime s.cache.config response = some ttl ∧ ∀ now, now - t₀ < ttl →
      (s.step ⟨t₀, .insert query response pick⟩).Hit query now ⟨response, t₀, ttl, ()⟩
        (response.withTtl (UInt32.ofNat (Duration.asSecs (ttl - (now - t₀))))) := by
  obtain ⟨ttl, httl, hlookup⟩ := Cache.lookup_insert h s.cache s.metrics t₀ pick ()
  refine ⟨ttl, httl, ?_⟩
  intro now hlive
  exact ⟨hlookup, Cache.get_eq_some_iff.mpr ⟨_, hlookup, hlive, rfl, rfl⟩⟩

theorem Hit.lifetime_eq {cfg : CacheConfig} {m : Metrics} {calls : List CacheCall}
    {query msg : Message} {now : Nat} {e : CacheEntry Unit}
    (h : ((new cfg m).exec calls).1.Hit query now e msg) :
    lifetime cfg e.message = some e.ttl := by
  obtain ⟨key, hkey, he⟩ := Option.bind_eq_some_iff.mp h.found
  exact (refines_exec cfg m calls).ttl key e he

theorem Hit.ttlsAre {cfg : CacheConfig} {m : Metrics} {calls : List CacheCall}
    {query msg : Message} {now : Nat} {e : CacheEntry Unit} (hfit : cfg.ttlsFit = true)
    (h : ((new cfg m).exec calls).1.Hit query now e msg) :
    msg.TtlsAre (Duration.asSecs (e.remaining now)) := by
  intro r hr
  have hlt := lifetime_lt hfit h.lifetime_eq
  have hsecs := asSecs_lt (Nat.lt_of_le_of_lt (Nat.sub_le e.ttl (now - e.insertedAt)) hlt)
  rw [h.message_eq] at hr
  rw [ttl_of_mem_withTtl hr]
  exact UInt32.toNat_ofNat_of_lt' hsecs

end CacheState

/-- **The TTLs of hits.** For every configuration: in any two hits on one
entry, whatever calls come before each, every record carries the whole
seconds that are left of the entry's lifetime, and so never more in the
later hit, exactly when no configured minimum forces a lifetime of `2^32`
seconds or more. -/
theorem hit_ttls_iff (cfg : CacheConfig) (m : Metrics) :
    (∀ (calls₁ calls₂ : List CacheCall) (query₁ query₂ msg₁ msg₂ : Message) (t₁ t₂ : Nat)
        (e : CacheEntry Unit),
      ((CacheState.new cfg m).exec calls₁).1.Hit query₁ t₁ e msg₁ →
      ((CacheState.new cfg m).exec calls₂).1.Hit query₂ t₂ e msg₂ → t₁ ≤ t₂ →
      msg₁.TtlsAre (Duration.asSecs (e.remaining t₁)) ∧
        msg₂.TtlsAre (Duration.asSecs (e.remaining t₂)) ∧
        ∀ r₁ ∈ msg₁.records, ∀ r₂ ∈ msg₂.records, r₂.ttl ≤ r₁.ttl) ↔
      cfg.ttlsFit = true := by
  constructor
  · intro h
    by_contra hfit
    rw [Bool.not_eq_true] at hfit
    -- store one record and look at it at once: nothing of the lifetime is gone
    let query : Message := { queries := [⟨⟨[labelOf "example", labelOf "org"], true⟩, .A, .IN⟩] }
    let calls : List CacheCall := [⟨0, .insert query (oneRecord query) 0⟩]
    have hstores : Cache.stores query (oneRecord query) = true := by decide
    obtain ⟨ttl, httl, hhits⟩ := CacheState.hit_insert hstores (CacheState.new cfg m) 0 0
    have hle := le_lifetime hfit httl
    have hhit := hhits 0 (Nat.lt_of_lt_of_le (by decide) hle)
    have hexact := (h calls calls query query _ _ 0 0 _ hhit hhit (Nat.le_refl 0)).1
    have hsecs : (UInt32.ofNat (Duration.asSecs ttl)).toNat = Duration.asSecs ttl :=
      hexact _ (List.mem_cons_self ..)
    have hlt := (UInt32.ofNat (Duration.asSecs ttl)).toNat_lt
    have hge := le_asSecs hle
    omega
  · intro hfit calls₁ calls₂ query₁ query₂ msg₁ msg₂ t₁ t₂ e h₁ h₂ hle
    have hexact₁ := h₁.ttlsAre hfit
    have hexact₂ := h₂.ttlsAre hfit
    refine ⟨hexact₁, hexact₂, ?_⟩
    intro r₁ hr₁ r₂ hr₂
    rw [UInt32.le_iff_toNat_le, hexact₁ r₁ hr₁, hexact₂ r₂ hr₂]
    unfold Duration.asSecs CacheEntry.remaining
    apply Nat.div_le_div_right
    omega

/-- `validate` accepts a `min_ttl` of `2^32 + 1` seconds. A hit half a
second later then carries a TTL of 0, and one another second later a TTL of
`2^32 - 1`. -/
theorem hit_ttl_wraps :
    let upstream : UpstreamEntry := { name := "mock".toList, address := "127.0.0.1:53".toList }
    let config : Config :=
      { serverBinds := [⟨.v4 0#32, 853⟩], upstreams := [upstream],
        cache := { minTtl := some (Duration.fromSecs 4294967297) } }
    let query : Message := { queries := [⟨⟨[labelOf "example", labelOf "org"], true⟩, .A, .IN⟩] }
    let s := ((CacheState.new config.cache {}).exec [⟨0, .insert query (oneRecord query) 0⟩]).1
    let half := Duration.fromSecs 1 / 2
    let later := Duration.fromSecs 1 + half
    config.validate (fun _ => false) (fun _ => false) = .ok () ∧
      ∃ e msg₁ msg₂, s.Hit query half e msg₁ ∧ s.Hit query later e msg₂ ∧
        Duration.asSecs (e.remaining half) = 4294967296 ∧
        (msg₁.records.map Record.ttl) = [0] ∧ (msg₂.records.map Record.ttl) = [4294967295] := by
  intro upstream config query s half later
  have hstores : Cache.stores query (oneRecord query) = true := by decide
  obtain ⟨ttl, httl, hhits⟩ := CacheState.hit_insert hstores (CacheState.new config.cache {}) 0 0
  have hlife : lifetime config.cache (oneRecord query) = some (Duration.fromSecs 4294967297) := by
    decide +kernel
  obtain rfl : Duration.fromSecs 4294967297 = ttl := Option.some.inj (hlife.symm.trans httl)
  refine ⟨by decide +kernel, _, _, _, hhits half (by decide +kernel),
    hhits later (by decide +kernel), ?_, ?_, ?_⟩
  · decide +kernel
  · decide +kernel
  · decide +kernel

end Dotdns
