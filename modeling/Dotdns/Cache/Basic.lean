import Dotdns.Lib.AssocMap
import Dotdns.Config
import Dotdns.Metrics

/-!
# Cache — the TTL cache

`cache.rs`, operation by operation. One mutex guards the map, so each
operation is one state transformation; the clock reading it takes under
the lock is its `now` argument.

Two things the source leaves open are arguments here. The eviction victim
is "the first key" of a hash map, that is any key: `pick` chooses it by
position. And every entry carries a GHOST `origin : α`, what the entry
was stored for; the cache is polymorphic in `α`, so no operation can look
at it.
-/

namespace Dotdns

open Lib

/-- `CacheKey`. -/
structure CacheKey where
  name : Name
  qtype : RecordType
  qclass : DnsClass
  rd : Bool
  doBit : Bool
  ecs : Option (List UInt8)

namespace CacheKey

instance : BEq CacheKey :=
  ⟨fun a b => a.name == b.name && a.qtype == b.qtype && a.qclass == b.qclass
    && a.rd == b.rd && a.doBit == b.doBit && a.ecs == b.ecs⟩

/-- Key equality: names up to ASCII case, everything else exactly. -/
theorem beq_iff {a b : CacheKey} :
    (a == b) = true ↔ (a.name == b.name) = true ∧ a.qtype = b.qtype ∧
      a.qclass = b.qclass ∧ a.rd = b.rd ∧ a.doBit = b.doBit ∧ a.ecs = b.ecs := by
  show (a.name == b.name && a.qtype == b.qtype && a.qclass == b.qclass
    && a.rd == b.rd && a.doBit == b.doBit && a.ecs == b.ecs) = true ↔ _
  simp only [Bool.and_eq_true, beq_iff_eq, and_assoc]

instance : EquivBEq CacheKey where
  rfl := beq_iff.mpr ⟨BEq.rfl, rfl, rfl, rfl, rfl, rfl⟩
  symm h := by
    obtain ⟨hn, h1, h2, h3, h4, h5⟩ := beq_iff.mp h
    exact beq_iff.mpr ⟨BEq.symm hn, h1.symm, h2.symm, h3.symm, h4.symm, h5.symm⟩
  trans h h' := by
    obtain ⟨hn, h1, h2, h3, h4, h5⟩ := beq_iff.mp h
    obtain ⟨hn', h1', h2', h3', h4', h5'⟩ := beq_iff.mp h'
    exact beq_iff.mpr ⟨BEq.trans hn hn', h1.trans h1', h2.trans h2', h3.trans h3',
      h4.trans h4', h5.trans h5'⟩

end CacheKey

/-- The DO bit of the EDNS section, `false` without one. -/
def Message.doBit (msg : Message) : Bool :=
  match msg.edns with
  | some e => e.dnssecOk
  | none => false

/-- The client subnet option in wire form, when there is one. -/
def Message.ecsBytes (msg : Message) : Option (List UInt8) :=
  msg.edns.bind fun edns =>
    match edns.option ednsCodeSubnet with
    | some (.subnet s) => s.toBytes
    | _ => none

/-- `CacheKey::from_message`: only the first question counts. -/
def CacheKey.fromMessage (msg : Message) : Option CacheKey :=
  msg.queries.head?.map fun q =>
    { name := q.name
      qtype := q.queryType
      qclass := q.queryClass
      rd := msg.recursionDesired
      doBit := msg.doBit
      ecs := msg.ecsBytes }

/-- `CacheEntry`: a response, when it was stored, and for how long. -/
structure CacheEntry (α : Type*) where
  message : Message
  insertedAt : Nat
  ttl : Nat
  /-- Ghost: what this entry was stored for. -/
  origin : α

/-- `Cache`, without its lock and its recorder. -/
structure Cache (α : Type*) where
  config : CacheConfig
  entries : AssocMap CacheKey (CacheEntry α)

namespace Cache

variable {α : Type*}

/-- `Cache::new`. -/
def new (config : CacheConfig) (m : Metrics) : Cache α × Metrics :=
  (⟨config, .empty⟩, m.setCacheEntries 0)

/-- `CacheInner::update_metric`. -/
def updateMetric (c : Cache α) (m : Metrics) : Metrics :=
  m.setCacheEntries (UInt64.ofNat c.entries.size)

/-- `Cache::get`: an entry that has run out is removed, and the TTLs of a
hit are what is left of its lifetime. -/
def get (c : Cache α) (m : Metrics) (now : Nat) (query : Message) :
    Option (Message × α) × Cache α × Metrics :=
  match CacheKey.fromMessage query with
  | none => (none, c, m)
  | some key =>
      match c.entries.get? key with
      | none => (none, c, m)
      | some entry =>
          let elapsed := now - entry.insertedAt
          if elapsed ≥ entry.ttl then
            let c' := { c with entries := c.entries.erase key }
            (none, c', c'.updateMetric m)
          else
            let remaining := entry.ttl - elapsed
            let remainingSecs := UInt32.ofNat (Duration.asSecs remaining)
            (some (entry.message.withTtl remainingSecs, entry.origin), c, m)

/-- One of `insert`'s loops over a section: the running minimum and whether
any record was seen. -/
def minTtlLoop (acc : Nat × Bool) (section_ : List Record) : Nat × Bool :=
  section_.foldl (fun acc r => (min acc.1 r.ttl.toNat, true)) acc

/-- `if let Some(min) = config.min_ttl`: a shorter lifetime becomes `min`. -/
def raiseToMin (config : CacheConfig) (ttl : Nat) : Nat :=
  match config.minTtl with
  | some lo => if ttl < lo then lo else ttl
  | none => ttl

/-- `if let Some(max) = config.max_ttl`: a longer lifetime becomes `max`. -/
def lowerToMax (config : CacheConfig) (ttl : Nat) : Nat :=
  match config.maxTtl with
  | some hi => if ttl > hi then hi else ttl
  | none => ttl

/-- The lifetime `insert` computes, `none` for a response without records:
the minimum record TTL, raised to `min_ttl`, then lowered to `max_ttl`. -/
def entryTtl (config : CacheConfig) (response : Message) : Option Nat :=
  let acc := minTtlLoop (2 ^ 64 - 1, false) response.answers
  let acc := minTtlLoop acc response.nameServers
  let acc := minTtlLoop acc response.additionals
  if acc.2 then some (lowerToMax config (raiseToMin config (Duration.fromSecs acc.1)))
  else none

/-- The key the naive eviction drops: none below capacity, otherwise the
first key in the map's own order. -/
def victim (c : Cache α) (pick : Nat) : Option CacheKey :=
  if c.entries.size ≥ c.config.capacity
  then c.entries.keys[pick % c.entries.size]?
  else none

/-- The eviction in `insert`: one key, if the cache is full. -/
def makeRoom (c : Cache α) (m : Metrics) (pick : Nat) : Cache α × Metrics :=
  match c.victim pick with
  | some k => ({ c with entries := c.entries.erase k }, m.recordCacheEviction)
  | none => (c, m)

/-- `Cache::insert`: a response without a key or a lifetime is not stored. -/
def insert (c : Cache α) (m : Metrics) (now : Nat) (pick : Nat)
    (query response : Message) (origin : α) : Cache α × Metrics :=
  match CacheKey.fromMessage query with
  | none => (c, m)
  | some key =>
      match entryTtl c.config response with
      | none => (c, m)
      | some ttl =>
          let (c₁, m₁) := c.makeRoom m pick
          let c₂ := { c₁ with
            entries := c₁.entries.insert key ⟨response, now, ttl, origin⟩ }
          (c₂, c₂.updateMetric m₁)

/-- `Cache::flush`. -/
def flush (c : Cache α) (m : Metrics) : Cache α × Metrics :=
  let c' := { c with entries := .empty }
  (c', c'.updateMetric m)

/-! ## What each operation does to the stored entries -/

/-- The entry stored for a query's key, live or not. -/
def lookup (c : Cache α) (query : Message) : Option (CacheEntry α) :=
  (CacheKey.fromMessage query).bind c.entries.get?

theorem get_of_lookup_none {c : Cache α} {query : Message} (h : c.lookup query = none)
    (m : Metrics) (now : Nat) : c.get m now query = (none, c, m) := by
  unfold get
  cases hk : CacheKey.fromMessage query with
  | none => rfl
  | some key =>
      have he : c.entries.get? key = none := by simpa [lookup, hk] using h
      simp only [he]

theorem get_of_expired {c : Cache α} {query : Message} {key : CacheKey}
    {e : CacheEntry α} {now : Nat} (hk : CacheKey.fromMessage query = some key)
    (he : c.entries.get? key = some e) (hexp : e.ttl ≤ now - e.insertedAt) (m : Metrics) :
    c.get m now query = (none, { c with entries := c.entries.erase key },
      updateMetric { c with entries := c.entries.erase key } m) := by
  simp only [get, hk, he, ge_iff_le, hexp, if_true]

theorem get_of_live {c : Cache α} {query : Message} {e : CacheEntry α} {now : Nat}
    (hl : c.lookup query = some e) (hlive : now - e.insertedAt < e.ttl) (m : Metrics) :
    c.get m now query = (some (e.message.withTtl
      (UInt32.ofNat (Duration.asSecs (e.ttl - (now - e.insertedAt)))), e.origin), c, m) := by
  obtain ⟨key, hk, he⟩ := Option.bind_eq_some_iff.mp hl
  simp only [get, hk, he, ge_iff_le, Nat.not_le.mpr hlive, if_false]

/-- The three things a `get` can find. -/
theorem lookup_cases (c : Cache α) (query : Message) (now : Nat) :
    c.lookup query = none ∨
    (∃ key e, CacheKey.fromMessage query = some key ∧ c.entries.get? key = some e ∧
      e.ttl ≤ now - e.insertedAt) ∨
    ∃ e, c.lookup query = some e ∧ now - e.insertedAt < e.ttl := by
  cases hl : c.lookup query with
  | none => exact .inl rfl
  | some e =>
      obtain ⟨key, hk, he⟩ := Option.bind_eq_some_iff.mp hl
      rcases Nat.lt_or_ge (now - e.insertedAt) e.ttl with hlive | hexp
      · exact .inr (.inr ⟨e, rfl, hlive⟩)
      · exact .inr (.inl ⟨key, e, hk, he, hexp⟩)

/-- A hit: the stored entry, its age below its lifetime, and every TTL
rewritten to the whole seconds left. -/
theorem get_eq_some_iff {c : Cache α} {m : Metrics} {now : Nat}
    {query msg : Message} {o : α} :
    (c.get m now query).1 = some (msg, o) ↔
      ∃ e, c.lookup query = some e ∧ now - e.insertedAt < e.ttl ∧ e.origin = o ∧
        msg = e.message.withTtl
          (UInt32.ofNat (Duration.asSecs (e.ttl - (now - e.insertedAt)))) := by
  rcases lookup_cases c query now with hl | ⟨key, e, hk, he, hexp⟩ | ⟨e, hl, hlive⟩
  · simp [get_of_lookup_none hl, hl]
  · have hl : c.lookup query = some e := by simp [lookup, hk, he]
    rw [get_of_expired hk he hexp]
    constructor
    · intro h
      cases h
    · intro h
      obtain ⟨e', hl', hlive, _⟩ := h
      rw [hl] at hl'
      cases hl'
      omega
  · rw [get_of_live hl hlive]
    constructor
    · intro h
      cases h
      exact ⟨e, hl, hlive, rfl, rfl⟩
    · intro h
      obtain ⟨e', hl', _, rfl, rfl⟩ := h
      rw [hl] at hl'
      cases hl'
      rfl

@[simp] theorem get_config (c : Cache α) (m : Metrics) (now : Nat) (query : Message) :
    (c.get m now query).2.1.config = c.config := by
  rcases lookup_cases c query now with hl | ⟨key, e, hk, he, hexp⟩ | ⟨e, hl, hlive⟩
  · rw [get_of_lookup_none hl]
  · rw [get_of_expired hk he hexp]
  · rw [get_of_live hl hlive]

/-- `get` drops at most the entry under the query's own key, and only once
its age has reached its lifetime. -/
theorem get_entries (c : Cache α) (m : Metrics) (now : Nat) (query : Message)
    (k : CacheKey) :
    (c.get m now query).2.1.entries.get? k =
      (c.entries.get? k).filter fun e =>
        !((CacheKey.fromMessage query).any (· == k) && decide (e.ttl ≤ now - e.insertedAt)) := by
  have hkeep : ∀ o : Option (CacheEntry α), o = o.filter fun _ => true := by
    intro o
    cases o <;> rfl
  rcases lookup_cases c query now with hl | ⟨key, e, hk, he, hexp⟩ | ⟨e, hl, hlive⟩
  · rw [get_of_lookup_none hl]
    cases hk : CacheKey.fromMessage query with
    | none => simpa using hkeep _
    | some key =>
        by_cases hkk : key == k
        · have he : c.entries.get? k = none := by
            rw [← AssocMap.get?_congr _ hkk]
            simpa [lookup, hk] using hl
          simp [he]
        · simpa [hkk] using hkeep _
  · rw [get_of_expired hk he hexp, AssocMap.get?_erase, hk]
    by_cases hkk : key == k
    · rw [AssocMap.get?_congr _ hkk] at he
      simp [hkk, he, hexp, Option.filter]
    · simpa [hkk] using hkeep _
  · obtain ⟨key, hk, he⟩ := Option.bind_eq_some_iff.mp hl
    rw [get_of_live hl hlive, hk]
    by_cases hkk : key == k
    · rw [AssocMap.get?_congr _ hkk] at he
      have hnot : ¬ e.ttl ≤ now - e.insertedAt := by omega
      simp [he, hnot, Option.filter]
    · simpa [hkk] using hkeep _

/-- An entry that `get` leaves behind was there before. -/
theorem get_entries_subset {c : Cache α} {m : Metrics} {now : Nat} {query : Message}
    {k : CacheKey} {e : CacheEntry α}
    (h : (c.get m now query).2.1.entries.get? k = some e) : c.entries.get? k = some e := by
  rw [get_entries, Option.filter_eq_some_iff] at h
  exact h.1

theorem victim_mem {c : Cache α} {pick : Nat} {k : CacheKey}
    (h : c.victim pick = some k) : (c.entries.get? k).isSome := by
  unfold victim at h
  split at h
  · exact AssocMap.get?_isSome_of_mem_keys (List.mem_of_getElem? h)
  · cases h

/-- `insert` with a key and at least one record: the victim goes, then the
entry is stored. -/
theorem insert_entries {c : Cache α} {query response : Message} {key : CacheKey}
    {ttl : Nat} (hk : CacheKey.fromMessage query = some key)
    (ht : entryTtl c.config response = some ttl)
    (m : Metrics) (now pick : Nat) (o : α) (k : CacheKey) :
    (c.insert m now pick query response o).1.entries.get? k =
      if key == k then some ⟨response, now, ttl, o⟩
      else if (c.victim pick).any (· == k) then none
      else c.entries.get? k := by
  simp only [insert, hk, ht, AssocMap.get?_insert, makeRoom]
  cases hv : c.victim pick with
  | none => simp
  | some v => simp [AssocMap.get?_erase]

theorem insert_of_no_key {c : Cache α} {query : Message}
    (hk : CacheKey.fromMessage query = none) (response : Message)
    (m : Metrics) (now pick : Nat) (o : α) :
    c.insert m now pick query response o = (c, m) := by
  simp only [insert, hk]

theorem insert_of_no_records {c : Cache α} {response : Message}
    (ht : entryTtl c.config response = none) (query : Message)
    (m : Metrics) (now pick : Nat) (o : α) :
    c.insert m now pick query response o = (c, m) := by
  unfold insert
  cases CacheKey.fromMessage query with
  | none => rfl
  | some key => simp only [ht]

/-- What `insert` leaves alone. -/
theorem insert_frame (c : Cache α) (m : Metrics) (now pick : Nat) (query response : Message)
    (o : α) :
    (c.insert m now pick query response o).1.config = c.config ∧
    (c.insert m now pick query response o).2.blockedQueries = m.blockedQueries := by
  unfold insert makeRoom
  cases CacheKey.fromMessage query with
  | none => exact ⟨rfl, rfl⟩
  | some key =>
      cases entryTtl c.config response with
      | none => exact ⟨rfl, rfl⟩
      | some ttl => cases c.victim pick <;> exact ⟨rfl, rfl⟩

@[simp] theorem insert_config (c : Cache α) (m : Metrics) (now pick : Nat)
    (query response : Message) (o : α) :
    (c.insert m now pick query response o).1.config = c.config :=
  (c.insert_frame m now pick query response o).1

/-- An entry present after `insert` is the new one or was there before. -/
theorem insert_entries_cases {c : Cache α} {m : Metrics} {now pick : Nat}
    {query response : Message} {o : α} {k : CacheKey} {e : CacheEntry α}
    (h : (c.insert m now pick query response o).1.entries.get? k = some e) :
    (∃ key ttl, CacheKey.fromMessage query = some key ∧ (key == k) = true ∧
      entryTtl c.config response = some ttl ∧ e = ⟨response, now, ttl, o⟩) ∨
    c.entries.get? k = some e := by
  cases hk : CacheKey.fromMessage query with
  | none =>
      rw [insert_of_no_key hk] at h
      exact .inr h
  | some key =>
      cases ht : entryTtl c.config response with
      | none =>
          rw [insert_of_no_records ht] at h
          exact .inr h
      | some ttl =>
          rw [insert_entries hk ht] at h
          split at h
          · rename_i hkk
            cases h
            exact .inl ⟨key, ttl, rfl, hkk, rfl, rfl⟩
          · split at h
            · cases h
            · exact .inr h

/-! ## Counters the cache does not touch -/

theorem get_blockedQueries (c : Cache α) (m : Metrics) (now : Nat) (query : Message) :
    (c.get m now query).2.2.blockedQueries = m.blockedQueries := by
  rcases lookup_cases c query now with hl | ⟨key, e, hk, he, hexp⟩ | ⟨e, hl, hlive⟩
  · rw [get_of_lookup_none hl]
  · rw [get_of_expired hk he hexp]
    rfl
  · rw [get_of_live hl hlive]

theorem insert_blockedQueries (c : Cache α) (m : Metrics) (now pick : Nat)
    (query response : Message) (o : α) :
    (c.insert m now pick query response o).2.blockedQueries = m.blockedQueries :=
  (c.insert_frame m now pick query response o).2

end Cache

end Dotdns
